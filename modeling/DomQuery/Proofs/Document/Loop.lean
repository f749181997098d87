import DomQuery.Proofs.Document.Move

/-!
# Ways up through hosts

Some walks go up from a node through parents and, at the top of a shadow tree,
on to the host. No node is moved to where it would lie below itself, but that is
looked for among parents only: when a node is put into a shadow tree that hangs
from it, such a walk comes back to where it began.

* `careful_iff`: the ways up through parents and hosts stay free of loops
  exactly as long as no node is put below one that hangs from it.
* `run_careful`: as long as they do, every walk ends.
-/

namespace DomQuery.Tree.Links

variable {ν : Type} (t : Links ν)

/-- `m` is the parent of `n`, or its host. -/
def Hangs (m n : ν) : Prop :=
  t.parent n = some m ∨ t.shadowHost n = some m

variable {t}

theorem hangs_of_heritage {m n : ν} (h : t.heritage n = some m) : t.Hangs m n := by
  unfold heritage at h
  split at h
  · exact .inl h
  · exact .inr h
  · cases h

theorem hangs_of_up {m n : ν} (h : (t.parent n <|> t.shadowHost n) = some m) : t.Hangs m n := by
  cases hp : t.parent n with
  | some p => exact .inl (hp ▸ by simpa [hp] using h)
  | none => exact .inr (by simpa [hp] using h)

end DomQuery.Tree.Links

namespace DomQuery.Document

open DomQuery.Tree

variable {d d' : Document} {m n p reference : NodeId}

/-- No way up through parents and hosts leads back. -/
def NoLoop (d : Document) : Prop :=
  ∀ n, ¬ Relation.TransGen d.links.Hangs n n

/-- `n` hangs from `top`, over any number of parents and hosts, or is `top`. -/
def HangsWithin (d : Document) (top n : NodeId) : Prop :=
  Relation.ReflTransGen d.links.Hangs top n

theorem hangs_of_ties (hties : ∀ n, d'.ties n = d.ties n)
    (hparent : ∀ n p, d'.parent n = some p → d.parent n = some p) (h : d'.links.Hangs m n) :
    d.links.Hangs m n :=
  h.imp (hparent n m) (congrArg Prod.snd (hties n)).symm.trans

/-- Nothing hangs from a node without children and shadow root. -/
theorem eq_of_hangsWithin (h : d.Linked) (hh : d.Hosted) (hchildren : d.children n = [])
    (hroot : d.shadowRoot n = none) (hw : d.HangsWithin n p) : p = n := by
  rcases Relation.ReflTransGen.cases_head hw with rfl | ⟨c, hc | hc, -⟩
  · rfl
  · have hmem : c ∈ d.children n := h.mem_children.mpr hc
    rw [hchildren] at hmem
    cases hmem
  · have hsome : d.shadowRoot n = some c := (hh n c).mpr hc
    rw [hroot] at hsome
    cases hsome

namespace NoLoop

theorem empty (contentType : ContentType) : (Document.empty contentType).NoLoop := by
  intro n hn
  obtain ⟨m, -, hm | hm⟩ := Relation.TransGen.tail'_iff.mp hn
  · have hparent : (Document.empty contentType).parent n = none := by
      rw [parent, node?_empty]
      split <;> rfl
    cases hparent.symm.trans hm
  · have hhost : (Document.empty contentType).shadowHost n = none :=
      congrArg Prod.snd (ties_empty contentType)
    cases hhost.symm.trans hm

/-- A document with fewer links. -/
theorem mono (h : d.NoLoop) (hlinks : ∀ {m n}, d'.links.Hangs m n → d.links.Hangs m n) :
    d'.NoLoop :=
  fun n hn => h n (Relation.TransGen.mono (fun _ _ hab => hlinks hab) n n hn)

/-- Nothing hangs from a root that was just attached, so it closes no loop. -/
theorem attach {host : NodeId} (h : d.NoLoop) (hd : d.Linked) (hh : d.Hosted)
    (ha : d.Attaches host d') (hparent : ∀ n, d'.parent n = d.parent n) : d'.NoLoop := by
  intro n hn
  have hchain := transGen_of_insert (R := d.links.Hangs) (p := host) (n := ⟨d.nodes.size⟩)
    (fun {x y} hxy => ?_) hn
  · rcases hchain with hchain | ⟨htop, hbottom⟩
    · exact h n hchain
    · have hchildren : d.children ⟨d.nodes.size⟩ = [] := by
        rw [children, node?_size]
        rfl
      have hroot : d.shadowRoot ⟨d.nodes.size⟩ = none := congrArg Prod.fst ties_size
      obtain rfl := eq_of_hangsWithin hd hh hchildren hroot hbottom
      obtain rfl := eq_of_hangsWithin hd hh hchildren hroot htop
      have hhost := ha.exists_host
      rw [node?_size] at hhost
      cases hhost
  · rcases hxy with hxy | hxy
    · exact .inl (.inl ((hparent y).symm.trans hxy))
    · have hxy : d'.shadowHost y = some x := hxy
      rw [ha.shadowHost_eq] at hxy
      split at hxy
      · rename_i hy
        exact .inr ⟨(Option.some.inj hxy).symm, hy⟩
      · exact .inl (.inr hxy)

theorem alteration (h : d.NoLoop) (hd : d.Linked) (hh : d.Hosted) (ha : Alteration d d') :
    d'.NoLoop := by
  rcases ha.ties_cases with hties | ⟨⟨host, hattach⟩, hparent⟩
  · exact h.mono (hangs_of_ties hties fun _ _ => ha.parent_before)
  · exact h.attach hd hh hattach hparent

theorem alterations (h : d.NoLoop) (hd : d.Linked) (hh : d.Hosted) (ha : Alterations d d') :
    d'.NoLoop := by
  induction ha using Relation.ReflTransGen.head_induction_on with
  | refl => exact h
  | head ha _ ih => exact ih (h.alteration hd hh ha) (ha.linked hd) (hh.change (.alter ha))

/-- A node that is moved closes a loop exactly when it is put below a node that
hangs from it. -/
theorem moved_iff {nodes : List NodeId} (h : d.NoLoop) (hm : d.IsMoved n p nodes d') :
    d'.NoLoop ↔ ¬ d.HangsWithin n p := by
  have hties : ∀ m, d'.ties m = d.ties m := fun m => ties_of_data? (hm.data?_eq m)
  have hhost : ∀ m, d'.shadowHost m = d.shadowHost m := fun m => congrArg Prod.snd (hties m)
  constructor
  · intro h' hw
    -- the links on the way from `p` up to `n` are not the one that changed
    have hkeep : ∀ m, d.HangsWithin n m → Relation.ReflTransGen d'.links.Hangs n m := by
      intro m hw
      induction hw with
      | refl => exact .refl
      | @tail a b ha hab ih =>
        have hne : b ≠ n := by
          rintro rfl
          exact h b (Relation.TransGen.tail' ha hab)
        refine ih.tail (hab.imp (fun hb => ?_) fun hb => ?_)
        · exact (hm.parent_eq b hne).trans hb
        · exact (hhost b).trans hb
    exact h' n (Relation.TransGen.tail' (hkeep p hw) (.inl hm.parent_self))
  · intro hw m hloop
    have hchain := transGen_of_insert (R := d.links.Hangs) (p := p) (n := n)
      (fun {x y} hxy => ?_) hloop
    · rcases hchain with hchain | ⟨htop, hbottom⟩
      · exact h m hchain
      · exact hw (hbottom.trans htop)
    · by_cases hy : y = n
      · subst hy
        rcases hxy with hxy | hxy
        · exact .inr ⟨Option.some.inj (hxy.symm.trans hm.parent_self), rfl⟩
        · exact .inl (.inr ((hhost y).symm.trans hxy))
      · exact .inl (hxy.imp (hm.parent_eq y hy).symm.trans (hhost y).symm.trans)

end NoLoop

/-! ### Operations -/

/-- The operation succeeds and puts `n` below `p`. -/
inductive Puts (d : Document) : Operation → NodeId → NodeId → Prop
  | append {p n : NodeId} {d' : Document} (h : (append p n).run.run d = (.ok (), d')) :
      Puts d (.append p n) n p
  | insertBefore {reference n p : NodeId} {d' : Document} (hp : d.parent reference = some p)
      (h : (insertBefore reference n).run.run d = (.ok (), d')) :
      Puts d (.insertBefore reference n) n p

/-- What an edit leaves behind that moves a node or fails. -/
theorem noLoop_after_iff {e : Edit Unit} (h : d.Reachable) (hl : d.NoLoop)
    (hok : ∀ d', e.run.run d = (.ok (), d') → ∃ nodes, d.IsMoved n p nodes d')
    (hfail : ∀ fault d', e.run.run d = (.error fault, d') →
      d' = if fault.isCycle then d.detach n else d) :
    (d.after e).NoLoop ↔ ∀ d', e.run.run d = (.ok (), d') → ¬ d.HangsWithin n p := by
  rw [after]
  rcases hrun : e.run.run d with ⟨fault | ⟨⟩, d'⟩
  · have hd' := hfail fault d' hrun
    refine iff_of_true ?_ fun _ he => by cases he
    split at hd'
    · exact hd' ▸ hl.alteration h.coherent.linked h.hosted (.detach n)
    · exact hd' ▸ hl
  · obtain ⟨nodes, hm⟩ := hok d' hrun
    rw [hl.moved_iff hm]
    exact ⟨fun hw _ _ => hw, fun hw => hw d' rfl⟩

theorem noLoop_append_iff (h : d.Reachable) (hl : d.NoLoop) :
    (d.after (append p n)).NoLoop ↔
      ∀ d', (append p n).run.run d = (.ok (), d') → ¬ d.HangsWithin n p := by
  have hc := h.coherent
  refine noLoop_after_iff h hl (fun d' hrun => ?_) fun _ _ => failed_append hc.linked
  obtain ⟨⟨hp, hn, -⟩, rfl⟩ := (run_append_iff hc).mp hrun
  exact ⟨_, isMoved_link hc.linked hn hp _⟩

theorem noLoop_insertBefore_iff (h : d.Reachable) (hl : d.NoLoop)
    (hr : d.parent reference = some p) :
    (d.after (insertBefore reference n)).NoLoop ↔
      ∀ d', (insertBefore reference n).run.run d = (.ok (), d') → ¬ d.HangsWithin n p := by
  have hc := h.coherent
  refine noLoop_after_iff h hl (fun d' hrun => ?_) fun _ _ => failed_insertBefore hc.linked
  obtain ⟨q, ⟨hq, hn, -⟩, rfl⟩ := (run_insertBefore_iff hc).mp hrun
  obtain rfl := Option.some.inj (hr.symm.trans hq)
  exact ⟨_, isMoved_link hc.linked hn (hc.canHold hr) _⟩

/-- An operation closes a loop exactly when it puts a node below one that hangs
from it. -/
theorem noLoop_apply_iff (h : d.Reachable) (hl : d.NoLoop) (op : Operation) :
    (op.apply d).NoLoop ↔ ∀ n p, d.Puts op n p → ¬ d.HangsWithin n p := by
  cases op
  case append p n =>
    refine (noLoop_append_iff h hl).trans ⟨?_, fun hw d' hrun => hw n p (.append hrun)⟩
    rintro hw _ _ ⟨hrun⟩
    exact hw _ hrun
  case insertBefore reference n =>
    cases hr : d.parent reference with
    | none =>
      have hd : (Operation.insertBefore reference n).apply d = d :=
        congrArg Prod.snd (run_insertBefore_of_none hr)
      rw [hd]
      refine iff_of_true hl ?_
      rintro _ _ (_ | ⟨hp, -⟩)
      cases hr.symm.trans hp
    | some p =>
      refine (noLoop_insertBefore_iff h hl hr).trans
        ⟨?_, fun hw d' hrun => hw n p (.insertBefore hr hrun)⟩
      rintro hw _ _ (_ | ⟨hq, hrun⟩)
      obtain rfl := Option.some.inj (hr.symm.trans hq)
      exact hw _ hrun
  all_goals
    exact iff_of_true (hl.alterations h.coherent.linked h.hosted (alterations_apply rfl)) nofun

/-! ### Runs -/

/-- No operation of the sequence puts a node below one that hangs from it. -/
def Careful (d : Document) : List Operation → Prop
  | [] => True
  | op :: ops => (∀ n p, d.Puts op n p → ¬ d.HangsWithin n p) ∧ (op.apply d).Careful ops

/-- Documents stay free of loops as long as no node is put below one that hangs
from it, and no longer. -/
theorem careful_iff (h : d.Reachable) (hl : d.NoLoop) (ops : List Operation) :
    d.Careful ops ↔ ∀ before, before <+: ops → (d.run before).NoLoop := by
  induction ops generalizing d with
  | nil =>
    refine iff_of_true trivial fun before hb => ?_
    rw [List.prefix_nil.mp hb]
    exact hl
  | cons op ops ih =>
    rw [Careful, ← noLoop_apply_iff h hl op]
    constructor
    · rintro ⟨hop, hops⟩ (_ | ⟨op', before⟩) hb
      · exact hl
      · obtain ⟨rfl, hrest⟩ := List.cons_prefix_cons.mp hb
        exact (ih (h.apply op') hop).mp hops before hrest
    · intro hall
      have hop : (op.apply d).NoLoop := hall [op] (List.cons_prefix_cons.mpr ⟨rfl, List.nil_prefix⟩)
      refine ⟨hop, (ih (h.apply op) hop).mpr fun before hb => ?_⟩
      exact hall (op :: before) (List.cons_prefix_cons.mpr ⟨rfl, hb⟩)

/-! ### Walks -/

theorem isSome_node?_of_shadowHost (h : d.shadowHost n = some m) : (d.node? n).isSome = true := by
  cases hdata : d.data? n with
  | none =>
    rw [shadowHost, hdata] at h
    cases h
  | some data => exact isSome_node?_of_data? hdata

theorem isSome_node?_of_shadowRoot (h : d.shadowRoot n = some m) : (d.node? n).isSome = true := by
  cases hdata : d.data? n with
  | none =>
    rw [shadowRoot, element?, hdata] at h
    cases h
  | some data => exact isSome_node?_of_data? hdata

/-- Both ends of a link are nodes of the document. -/
theorem mem_allNodes_of_hangs (h : d.Linked) (hh : d.Hosted) (hmn : d.links.Hangs m n) :
    m ∈ d.allNodes ∧ n ∈ d.allNodes := by
  rcases hmn with hp | hs
  · have hchild : n ∈ d.children m := h.mem_children.mpr hp
    exact ⟨mem_allNodes (isSome_node?_of_child hchild), mem_allNodes (isSome_node?_of_parent hp)⟩
  · have hroot : d.shadowRoot m = some n := (hh m n).mpr hs
    exact ⟨mem_allNodes (isSome_node?_of_shadowRoot hroot),
      mem_allNodes (isSome_node?_of_shadowHost hs)⟩

/-- A walk along parents and hosts comes to no node twice, so it ends. -/
theorem NoLoop.length_follow_le (h : d.Reachable) (hl : d.NoLoop) {up : NodeId → Option NodeId}
    (hup : ∀ {m n}, up n = some m → d.links.Hangs m n) (k : Nat) (n : NodeId) :
    (follow up k n).length ≤ d.nodes.size := by
  have hback : ∀ n, ¬ Relation.TransGen (fun m n => up n = some m) n n := fun n hn =>
    hl n (Relation.TransGen.mono (fun _ _ => hup) n n hn)
  obtain ⟨hchain, hnodup⟩ := nodup_follow hback k n
  have hsub : follow up k n ⊆ d.allNodes := by
    intro m hm
    obtain ⟨c, hc, -⟩ := Relation.TransGen.head'_iff.mp (hchain m hm)
    exact (mem_allNodes_of_hangs h.coherent.linked h.hosted (hup hc)).1
  have hlength := (List.nodup_cons.mp hnodup).2.length_le_of_subset hsub
  simpa [allNodes] using hlength

/-- The ways up are free of loops all along exactly when no operation puts a node
below one that hangs from it, and then no walk goes on for longer than there are
nodes: neither the one for inherited properties nor the one to the document. -/
theorem run_careful (contentType : ContentType) (ops : List Operation) :
    ((Document.empty contentType).Careful ops ↔
      ∀ before, before <+: ops → ((Document.empty contentType).run before).NoLoop) ∧
    ((Document.empty contentType).Careful ops → ∀ d, d = (Document.empty contentType).run ops →
      ∀ k n, (follow d.links.heritage k n).length ≤ d.nodes.size ∧
        (follow (fun m => d.links.parent m <|> d.links.shadowHost m) k n).length ≤
          d.nodes.size) := by
  have hiff := careful_iff (.empty contentType) (.empty contentType) ops
  refine ⟨hiff, ?_⟩
  rintro hcareful d rfl k n
  have hl := hiff.mp hcareful ops (List.prefix_refl ops)
  have hr := (Reachable.empty contentType).run ops
  exact ⟨hl.length_follow_le hr Links.hangs_of_heritage k n,
    hl.length_follow_le hr Links.hangs_of_up k n⟩

/-- A shadow tree with one node in it. -/
def shadowed : List Operation :=
  [.createElement "div", .attachShadow ⟨1⟩ .open, .createElement "b", .append ⟨2⟩ ⟨3⟩]

theorem run_careful_shadowed : (Document.empty .html).Careful shadowed ∧
    (follow ((Document.empty .html).run shadowed).links.heritage 9 ⟨3⟩).length ≤ 4 := by
  have hcareful : (Document.empty .html).Careful shadowed := by
    refine ⟨nofun, nofun, nofun, ?_, trivial⟩
    rintro _ _ ⟨-⟩ hw
    have hd := (Reachable.empty .html).run (shadowed.take 3)
    have he := eq_of_hangsWithin hd.coherent.linked hd.hosted (by cbv)
      (by cbv) hw
    cases he
  have hsize : ((Document.empty .html).run shadowed).nodes.size = 4 := by cbv
  refine ⟨hcareful, ?_⟩
  rw [← hsize]
  exact ((run_careful .html shadowed).2 hcareful _ rfl 9 ⟨3⟩).1

/-- A host is put into its own shadow tree. -/
def looped : Document :=
  (Document.empty .html).run
    [.createElement "div", .attachShadow ⟨1⟩ .open, .append ⟨2⟩ ⟨1⟩]

/-- The walk for inherited properties goes from the host to its shadow root and
back, however many steps it is given. -/
theorem looped_walks_forever : looped.Reachable ∧ looped.parent ⟨1⟩ = some ⟨2⟩ ∧
    looped.shadowHost ⟨2⟩ = some ⟨1⟩ ∧ ¬ looped.NoLoop ∧
    ∀ k, (follow looped.links.heritage k ⟨1⟩).length = k ∧
      (follow looped.links.heritage k ⟨2⟩).length = k := by
  have hp : looped.parent ⟨1⟩ = some ⟨2⟩ := by cbv
  have hs : looped.shadowHost ⟨2⟩ = some ⟨1⟩ := by cbv
  have hup : looped.links.heritage ⟨1⟩ = some ⟨2⟩ := by cbv
  have hup' : looped.links.heritage ⟨2⟩ = some ⟨1⟩ := by cbv
  refine ⟨(Reachable.empty .html).run _, hp, hs, fun hl => ?_, fun k => ?_⟩
  · have hdown : looped.links.Hangs ⟨1⟩ ⟨2⟩ := .inr hs
    have hback : looped.links.Hangs ⟨2⟩ ⟨1⟩ := .inl hp
    exact hl ⟨1⟩ (.tail (.single hdown) hback)
  · induction k with
    | zero => exact ⟨rfl, rfl⟩
    | succ k ih =>
      rw [follow, follow, hup, hup']
      exact ⟨congrArg Nat.succ ih.2, congrArg Nat.succ ih.1⟩

end DomQuery.Document
