import DomQuery.Proofs.Selector.Branches
import DomQuery.Proofs.Selector.Grammar

/-!
# Where a branch was read

Every branch of a list that was read, and of the lists in its arguments, was read as a
complex selector of values that stand together in the text, on the outermost level or in
a block.

* `Yields`: what is read has a property, whatever the number with which reading begins.
* `SelectorList.readIn_of_parse`: all branches were read of values in the text.
-/

namespace DomQuery.Selector

open DomQuery.Css DomQuery.Text

/-- The values of a branch stand together in `vs`, or in a block there. -/
inductive Stands : List Value → List Value → Prop
  | here {branch vs : List Value} (h : branch <:+: vs) : Stands branch vs
  | inside {branch vs contents : List Value} {opener : Token} {source : List Char}
      (hb : .block opener contents source ∈ vs) (h : Stands branch contents) : Stands branch vs

/-- The complex selector is what reading the values comes to, from some number on. -/
def Complex.ReadOf (within : Complex) (branch : List Value) : Prop :=
  ∃ n m, (readComplex (Item.ofValues branch)).run.run n = (.ok within, m)

/-- Every branch of the list, and of the lists in it, was read of values that stand in `vs`. -/
def SelectorList.ReadIn (vs : List Value) (list : SelectorList) : Prop :=
  ∀ inner ∈ list.allLists, ∀ within ∈ inner.selectors,
    ∃ branch, Stands branch vs ∧ within.ReadOf branch

/-! ### Readers -/

section Readers

variable {α β : Type}

/-- What is read satisfies `P`, whatever the number with which reading begins. -/
def Yields (x : Read α) (P : α → Prop) : Prop :=
  ∀ n a m, x.run.run n = (.ok a, m) → P a

namespace Yields

variable {P : α → Prop} {Q : β → Prop} {x : Read α}

protected theorem pure {a : α} (h : P a) : Yields (pure a) P := by
  rintro n _ m ⟨⟩
  exact h

protected theorem throw (e : ReadError) : Yields (throw e) P := by
  rintro n a m ⟨⟩

protected theorem bind {f : α → Read β} (h : Yields x P) (hf : ∀ a, P a → Yields (f a) Q) :
    Yields (x >>= f) Q := by
  intro n b m hrun
  obtain ⟨a, n', hx, hrun⟩ := exists_of_run_bind hrun
  exact hf a (h n a n' hx) n' b m hrun

protected theorem map {f : α → β} (h : Yields x fun a => Q (f a)) : Yields (f <$> x) Q := by
  rw [map_eq_pure_bind]
  exact h.bind fun _ ha => .pure ha

protected theorem attempt (h : Yields x P) : Yields (attempt x) fun r => ∀ a ∈ r, P a := by
  intro n r m hrun
  rw [run_attempt] at hrun
  obtain ⟨hr, -⟩ := Prod.mk.inj hrun
  obtain rfl := Except.ok.inj hr
  rcases hx : x.run.run n with ⟨e | a, n'⟩
  · exact fun a ha => nomatch ha
  · exact forall_mem_some (h n a n' hx)

protected theorem mapM {ι : Type} {f : ι → Read α} {is : List ι} (h : ∀ i ∈ is, Yields (f i) P) :
    Yields (is.mapM f) fun as => ∀ a ∈ as, P a := by
  induction is with
  | nil => exact .pure (by simp)
  | cons i is ih =>
    obtain ⟨hi, his⟩ := List.forall_mem_cons.mp h
    rw [List.mapM_cons]
    exact hi.bind fun a ha => (ih his).bind fun as has => .pure (List.forall_mem_cons.mpr ⟨ha, has⟩)

end Yields

theorem yields_lift (result : Except ReadError α) : Yields (lift result) fun a => result = .ok a := by
  rcases result with e | a
  · exact .throw e
  · exact .pure rfl

end Readers

/-! ### Values in the text -/

section Values

variable {vs ws : List Value}

theorem Item.ofValues_eq_map (vs : List Value) : ofValues vs = vs.map ofValue := by
  induction vs with
  | nil => rfl
  | cons v vs ih => rw [ofValues, ih, List.map_cons]

/-- Items that stand together among those of the values are those of some of the values. -/
theorem exists_infix_ofValues {items : List Item} (h : items <:+: Item.ofValues vs) :
    ∃ ws, ws <:+: vs ∧ items = Item.ofValues ws := by
  obtain ⟨before, after, heq⟩ := h
  rw [Item.ofValues_eq_map] at heq
  obtain ⟨front, vs', rfl, hfront, -⟩ := List.map_eq_append_iff.mp heq.symm
  obtain ⟨vs₁, vs₂, rfl, -, rfl⟩ := List.map_eq_append_iff.mp hfront
  exact ⟨vs₂, ⟨vs₁, vs', rfl⟩, (Item.ofValues_eq_map vs₂).symm⟩

theorem SelectorList.ReadIn.inside {list : SelectorList} {opener : Token} {contents : List Value}
    {source : List Char} (h : list.ReadIn contents) (hb : .block opener contents source ∈ vs) :
    list.ReadIn vs := by
  intro inner hi within hw
  obtain ⟨branch, hbranch, hread⟩ := h inner hi within hw
  exact ⟨branch, .inside hb hbranch, hread⟩

theorem SelectorList.readIn_of_selectors {list : SelectorList}
    (h : ∀ within ∈ list.selectors, (∃ branch, Stands branch vs ∧ within.ReadOf branch) ∧
      ∀ c ∈ within.components, ∀ inner ∈ c.lists, inner.ReadIn vs) : list.ReadIn vs := by
  intro inner hi
  rw [allLists_eq] at hi
  rcases List.mem_cons.mp hi with rfl | hi
  · exact fun within hw => (h within hw).1
  · obtain ⟨within, hw, hi⟩ := List.mem_flatMap.mp hi
    obtain ⟨c, hc, hi⟩ := List.mem_flatMap.mp hi
    obtain ⟨list', hl, hi⟩ := List.mem_flatMap.mp hi
    exact (h within hw).2 c hc list' hl inner hi

end Values

/-! ### Lists in arguments -/

section Lists

variable {vs : List Value} {items : List Item}

/-- The lists that the item reads are read of values in `vs`. -/
def Item.ReadsIn (vs : List Value) : Item → Prop
  | .function _ argument _ => Yields argument fun a => ∀ list ∈ a.lists, list.ReadIn vs
  | _ => True

theorem Component.MadeOf.readIn {c : Component} {taken : List Item} (h : c.MadeOf taken)
    (hitems : ∀ i ∈ taken, i.ReadsIn vs) : ∀ list ∈ c.lists, list.ReadIn vs := by
  cases h with
  | functional name source hrun =>
    exact hitems _ (List.mem_cons_of_mem _ (List.mem_singleton.mpr rfl)) _ _ _ hrun
  | _ => exact fun list hl => nomatch hl

/-- A branch is what its components were read as. -/
theorem run_readComponents_of_readComplex {within : Complex} {n m : Nat}
    (h : (readComplex items).run.run n = (.ok within, m)) :
    (readComponents items.length false [] items).run.run n = (.ok within.components, m) := by
  rw [readComplex, map_eq_pure_bind] at h
  obtain ⟨out, n', hout, h⟩ := exists_of_run_bind h
  obtain ⟨hok, rfl⟩ := Prod.mk.inj h
  obtain rfl := Except.ok.inj hok
  exact hout

theorem yields_readComplex {branch : List Value} (hbranch : Stands branch vs)
    (hitems : ∀ i ∈ Item.ofValues branch, i.ReadsIn vs) :
    Yields (readComplex (Item.ofValues branch)) fun within =>
      (∃ branch, Stands branch vs ∧ within.ReadOf branch) ∧
        ∀ c ∈ within.components, ∀ inner ∈ c.lists, inner.ReadIn vs := by
  intro n within m hrun
  have hcomponents := run_readComponents_of_readComplex hrun
  exact ⟨⟨branch, hbranch, n, m, hrun⟩, forall_readComponents (fun _ => nofun)
    (fun _ _ hc => hc.readIn) (Nat.le_refl _) hcomponents hitems (by simp)⟩

/-- The items stand together among those of `vs`, and the lists in them are read there too. -/
def StandIn (vs : List Value) (items : List Item) : Prop :=
  items <:+: Item.ofValues vs ∧ ∀ i ∈ items, i.ReadsIn vs

theorem StandIn.infix {group : List Item} (h : StandIn vs items) (hg : group <:+: items) :
    StandIn vs group :=
  ⟨hg.trans h.1, fun i hi => h.2 i (hg.subset hi)⟩

theorem StandIn.yields_readList (h : StandIn vs items) (forgiving : Bool) :
    Yields (readList forgiving items) fun list => list.ReadIn vs := by
  have hbranches : ∀ branch ∈ (splitCommas items).map readComplex, Yields branch fun within =>
      (∃ branch, Stands branch vs ∧ within.ReadOf branch) ∧
        ∀ c ∈ within.components, ∀ inner ∈ c.lists, inner.ReadIn vs := by
    intro branch hb
    obtain ⟨group, hg, rfl⟩ := List.mem_map.mp hb
    have hgroup := h.infix (infix_of_splitCommas hg)
    obtain ⟨ws, hws, rfl⟩ := exists_infix_ofValues hgroup.1
    exact yields_readComplex (.here hws) hgroup.2
  refine Yields.bind (P := fun _ => True) (fun _ _ _ _ => trivial) fun id _ => ?_
  cases forgiving with
  | true =>
    refine (Yields.mapM fun branch hb => (hbranches branch hb).attempt).bind fun found hfound => ?_
    refine .pure (SelectorList.readIn_of_selectors fun within hw => ?_)
    obtain ⟨r, hr, rfl⟩ := List.mem_filterMap.mp hw
    exact hfound _ hr within rfl
  | false =>
    refine (Yields.mapM fun branch hb => hbranches branch hb).bind fun selectors hs => ?_
    exact .pure (SelectorList.readIn_of_selectors hs)

theorem StandIn.yields_readNth (h : StandIn vs items) (allowOf : Bool) :
    Yields (readNth allowOf items) fun a => ∀ list ∈ a.lists, list.ReadIn vs := by
  refine (yields_lift _).bind fun ⟨⟨a, b⟩, rest⟩ hr => ?_
  have hrest := h.infix (readStep_suffix hr).isInfix
  simp only
  split
  · rename_i tail ho
    have htail : StandIn vs tail := by
      cases allowOf
      · cases ho
      · exact hrest.infix (afterOf?_suffix ho).isInfix
    exact (htail.yields_readList false).bind fun list hl => .pure (List.forall_mem_singleton.mpr hl)
  · exact (yields_lift _).bind fun _ _ => .pure nofun

theorem StandIn.yields_readArgument (h : StandIn vs items) (name source : String) :
    Yields (readArgument name items source) fun a => ∀ list ∈ a.lists, list.ReadIn vs := by
  have hlist : ∀ forgiving, Yields (Argument.selectors <$> readList forgiving items)
      fun a => ∀ list ∈ a.lists, list.ReadIn vs := by
    intro forgiving
    rw [map_eq_pure_bind]
    exact (h.yields_readList forgiving).bind fun list hl =>
      .pure (List.forall_mem_singleton.mpr hl)
  have hwords : ∀ {α : Type} (f : α → List String) (result : Except ReadError α),
      Yields ((fun a => Argument.words (f a)) <$> lift result)
        fun a => ∀ list ∈ a.lists, list.ReadIn vs :=
    fun f result => Yields.map fun _ _ _ _ => nofun
  unfold readArgument
  split
  · exact hlist true
  split
  · exact hlist false
  split
  · exact h.yields_readNth true
  split
  · exact h.yields_readNth false
  split
  · exact hwords (fun texts => texts) _
  split
  · exact hwords (fun word => [word]) _
  · exact .pure nofun

end Lists

mutual

theorem readsIn_ofValue {v : Value} {vs : List Value} (h : v ∈ vs) : (Item.ofValue v).ReadsIn vs := by
  obtain t | ⟨opener, contents, source⟩ := v
  · trivial
  · have hcontents : StandIn contents (Item.ofValues contents) :=
      ⟨List.infix_rfl, readsIn_ofValues (List.Subset.refl contents)⟩
    unfold Item.ofValue
    split
    · trivial
    · intro n a m hrun list hl
      exact (hcontents.yields_readArgument _ _ n a m hrun list hl).inside h
    · trivial

theorem readsIn_ofValues {vs ws : List Value} (h : ws ⊆ vs) :
    ∀ i ∈ Item.ofValues ws, i.ReadsIn vs := by
  obtain _ | ⟨w, ws⟩ := ws
  · simp [Item.ofValues]
  · obtain ⟨hw, hws⟩ := List.cons_subset.mp h
    rw [Item.ofValues, List.forall_mem_cons]
    exact ⟨readsIn_ofValue hw, readsIn_ofValues hws⟩

end

/-- All branches of a list that was read were read of values that stand in the text. -/
theorem SelectorList.readIn_of_parse {text : String} {list : SelectorList}
    (h : parse text = .ok list) : list.ReadIn (values text) := by
  have hitems : StandIn (values text) (Item.ofValues (values text)) :=
    ⟨List.infix_rfl, readsIn_ofValues (List.Subset.refl _)⟩
  exact hitems.yields_readList false 0 list _ (Prod.ext h rfl)

end DomQuery.Selector
