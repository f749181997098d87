import DomQuery.Proofs.Query.Chain
import DomQuery.Proofs.Query.Parallel

/-!
# Contexts that look alike

A query sees a tree through a context. Two contexts that look alike at certain
nodes, and lead from these nodes to no others, are searched in parallel: the
same nodes are tested in the same order, and so the same ones are found. How
much the two may differ is said by a `Pairing`: the nodes to compare them at, the
errors that both may meet, and those by which the first one parts.

* `Pairing.Alike` lists what of a context shows in a query.
* `Alike.holdsSimple`: simple selectors are tested in parallel.
* `Alike.find`: so are searches made.
-/

namespace DomQuery

/-- The test asks no other selector. It looks at a node, and maybe around it, and
never fails. -/
def Selector.Simple.isPlain : Selector.Simple → Bool
  | .id _ | .className _ | .attr _ | .lang _ | .dir _ => true
  | .keyword k => k != .onlyChild && k != .onlyOfType
  | _ => false

namespace Query

open DomQuery.Selector DomQuery.Tree

variable {ν : Type}

/-- Two contexts to compare. -/
structure Pairing (ν : Type) where
  /-- Errors that only the first one may meet. -/
  excuse : QueryError → Prop
  /-- Errors that both may meet. -/
  meets : QueryError → Prop
  /-- The nodes where they are compared. -/
  inside : ν → Prop
  left : Context ν
  right : Context ν

namespace Pairing

/-- The evaluations run in parallel as far as the two contexts have to. -/
abbrev Runs {α β : Type} (p : Pairing ν) (R : α → β → Prop) (x : Eval ν α) (y : Eval ν β) : Prop :=
  Parallel p.excuse p.meets R x y

/-- The same list of nodes. -/
abbrev Same (p : Pairing ν) : List ν → List ν → Prop :=
  Shared p.inside

/-- The same list of nodes, or none on both sides. -/
def SameIndex (p : Pairing ν) : Option (List ν) → Option (List ν) → Prop :=
  Option.Rel p.Same

end Pairing

variable [DecidableEq ν]

/-- The two contexts look alike to a query, wherever it comes from inside. -/
structure Pairing.Alike (p : Pairing ν) : Prop where
  node_eq : p.right.node = p.left.node
  root_eq : p.right.root = p.left.root
  inside_node : p.inside p.left.node
  inside_root : p.inside p.left.root
  complain : ∀ e, e.fault = .unsupported → p.Runs Eq (p.left.complain e) (p.right.complain e)
  isElement_eq : ∀ n, p.inside n → p.right.tree.isElement n = p.left.tree.isElement n
  place_eq : ∀ n, p.inside n → p.right.place n = p.left.place n
  inside_host : ∀ n host, p.inside n → p.left.place n = .shadowRoot host → p.inside host
  plain_eq : ∀ s : Simple, s.isPlain = true → ∀ forgive n, p.inside n →
    p.right.holdsSimple forgive s n = p.left.holdsSimple forgive s n
  selectsType_eq : ∀ s n, p.inside n →
    selectsType? p.right.tree.toLinks s n = selectsType? p.left.tree.toLinks s n
  parent_eq : ∀ n, p.inside n → p.right.tree.parent n = p.left.tree.parent n
  inside_parent : ∀ n m, p.inside n → p.left.tree.parent n = some m → p.inside m
  elementChildren : ∀ n, p.inside n →
    p.Same (p.left.tree.elementChildren n) (p.right.tree.elementChildren n)
  selectAmong_eq : ∀ form nodes, (∀ n ∈ nodes, p.inside n) →
    selectAmong p.right.tree.toLinks form nodes = selectAmong p.left.tree.toLinks form nodes
  elementLine : ∀ n, p.inside n → p.Same (p.left.tree.elementLine n) (p.right.tree.elementLine n)
  related : ∀ heading c lookup n, p.inside n →
    p.Same (p.left.related heading c lookup n) (p.right.related heading c lookup n)
  walk : ∀ n, p.inside n → p.Same (p.left.tree.walk n) (p.right.tree.walk n)
  indexedBelow : ∀ scope lookup, p.inside scope →
    p.SameIndex (p.left.indexedBelow scope lookup) (p.right.indexedBelow scope lookup)
  indexedById : ∀ name, p.SameIndex
    (if p.left.searchesDocument then p.left.tree.elementsById p.left.root name else none)
    (if p.right.searchesDocument then p.right.tree.elementsById p.right.root name else none)
  ancestors_eq : ∀ n, p.inside n → p.right.tree.ancestors n = p.left.tree.ancestors n
  inScope_eq : ∀ n, p.inside n → p.right.inScope n = p.left.inScope n
  compare_eq : ∀ a b, p.inside a → p.inside b →
    p.right.tree.compare a b = p.left.tree.compare a b

variable {p : Pairing ν}

namespace Pairing

/-- Whether it warns does not show in a context. -/
theorem alike_of_warn {excuse meets : QueryError → Prop} {ctx : Context ν} {warn : Bool}
    (hcomplain : ∀ e, e.fault = .unsupported →
      Parallel excuse meets Eq (ctx.complain e) ({ ctx with warn }.complain e)) :
    Pairing.Alike ⟨excuse, meets, fun _ => True, ctx, { ctx with warn }⟩ := by
  have hlist : ∀ nodes : List ν, Shared (fun _ => True) nodes nodes := fun nodes =>
    .of_subset fun _ _ => trivial
  have hindex : ∀ found : Option (List ν), Option.Rel (Shared fun _ => True) found found := by
    rintro (_ | nodes)
    · exact .none
    · exact .some (hlist nodes)
  exact {
    node_eq := rfl
    root_eq := rfl
    inside_node := trivial
    inside_root := trivial
    complain := hcomplain
    isElement_eq := fun _ _ => rfl
    place_eq := fun _ _ => rfl
    inside_host := fun _ _ _ _ => trivial
    plain_eq := by
      intro s hs forgive n _
      cases s
      case keyword k => cases k <;> rfl
      case id | className | attr | lang | dir => rfl
      all_goals cases hs
    selectsType_eq := fun _ _ _ => rfl
    parent_eq := fun _ _ => rfl
    inside_parent := fun _ _ _ _ => trivial
    elementChildren := fun _ _ => hlist _
    selectAmong_eq := fun _ _ _ => rfl
    elementLine := fun _ _ => hlist _
    related := fun _ _ _ _ _ => hlist _
    walk := fun _ _ => hlist _
    indexedBelow := fun _ _ _ => hindex _
    indexedById := fun _ => hindex _
    ancestors_eq := fun _ _ => rfl
    inScope_eq := fun _ _ => rfl
    compare_eq := fun _ _ _ _ => rfl }

/-! ### Chains -/

/-- A compound is tested in parallel. In one of the contexts it may be forgiving. -/
def TestsAlike (p : Pairing ν) (forgive forgive' : Bool) (k : Compound) : Prop :=
  ∀ n, p.inside n → p.Runs Eq ((p.left.compoundProbe forgive k).holds n)
    ((p.right.compoundProbe forgive' k).holds n)

namespace Alike

variable (h : p.Alike) {forgive forgive' : Bool}
include h

theorem step {k : Compound} (hk : p.TestsAlike forgive forgive' k) (heading : Heading)
    (c : Combinator) {n : ν} (hn : p.inside n) :
    p.Runs p.Same (p.left.step heading c (p.left.compoundProbe forgive k) n)
      (p.right.step heading c (p.right.compoundProbe forgive' k) n) :=
  .filterM (h.related heading c (lookup? k) n hn) hk

theorem leadsBack {links : List (Link Compound)}
    (hk : ∀ link ∈ links, p.TestsAlike forgive forgive' link.compound) {n : ν} (hn : p.inside n) :
    p.Runs Eq
      (p.left.leadsBack
        (links.map fun link => ⟨p.left.compoundProbe forgive link.compound, link.combinator⟩) n)
      (p.right.leadsBack
        (links.map fun link => ⟨p.right.compoundProbe forgive' link.compound, link.combinator⟩)
        n) := by
  induction links generalizing n with
  | nil => exact .pure rfl
  | cons link links ih =>
    obtain ⟨hlink, hlinks⟩ := List.forall_mem_cons.mp hk
    rw [List.map_cons, List.map_cons, Context.leadsBack, Context.leadsBack]
    exact (h.step hlink _ _ hn).bind fun _ _ hnodes => .anyM hnodes fun m hm => ih hlinks hm

theorem reaches {steps : List (Combinator × Compound)}
    (hk : ∀ s ∈ steps, p.TestsAlike forgive forgive' s.2) {n : ν} (hn : p.inside n) :
    p.Runs Eq
      (p.left.reaches (steps.map fun s => (s.1, p.left.compoundProbe forgive s.2)) n)
      (p.right.reaches (steps.map fun s => (s.1, p.right.compoundProbe forgive' s.2)) n) := by
  induction steps generalizing n with
  | nil => exact .pure rfl
  | cons s steps ih =>
    obtain ⟨hs, hsteps⟩ := List.forall_mem_cons.mp hk
    rw [List.map_cons, List.map_cons, Context.reaches, Context.reaches]
    exact (h.step hs _ _ hn).bind fun _ _ hnodes => .anyM hnodes fun m hm => ih hsteps hm

theorem matchesChain {c : Chain Compound}
    (hk : ∀ k ∈ c.compounds, p.TestsAlike forgive forgive' k) {n : ν} (hn : p.inside n) :
    p.Runs Eq (p.left.matchesChain (c.map (p.left.compoundProbe forgive)) n)
      (p.right.matchesChain (c.map (p.right.compoundProbe forgive')) n) := by
  have hlinks : ∀ link ∈ c.links.reverse, p.TestsAlike forgive forgive' link.compound :=
    fun link hl => hk _ (c.compound_mem_compounds (List.mem_reverse.mp hl))
  have hback := h.leadsBack hlinks hn
  rw [List.map_reverse, List.map_reverse] at hback
  refine (hk _ c.last_mem_compounds n hn).bind_eq fun b => ?_
  cases b with
  | true => exact hback
  | false => exact .pure rfl

variable {branches : List (Chain Compound)}
variable (hk : ∀ c ∈ branches, ∀ k ∈ c.compounds, p.TestsAlike forgive forgive' k)
include hk

theorem matchesSome {n : ν} (hn : p.inside n) :
    p.Runs Eq (p.left.matchesSome (p.left.probes forgive branches) n)
      (p.right.matchesSome (p.right.probes forgive' branches) n) := by
  rw [Context.probes_eq, Context.probes_eq, Context.matchesSome, Context.matchesSome, anyM_map,
    anyM_map]
  exact .anyM (.of_subset hk) fun c hc => h.matchesChain hc hn

theorem hasSome {n : ν} (hn : p.inside n) :
    p.Runs Eq (p.left.hasSome (p.left.probes forgive branches) n)
      (p.right.hasSome (p.right.probes forgive' branches) n) := by
  rw [Context.probes_eq, Context.probes_eq, Context.hasSome, Context.hasSome, anyM_map, anyM_map]
  refine .anyM (.of_subset hk) fun c hc => ?_
  rw [Context.relativeSteps_map, Context.relativeSteps_map]
  exact h.reaches (fun s hs => hc _ (Context.mem_relativeSteps hs)) hn

/-- What is forgiven on both sides must not be an excuse. -/
theorem matchesSomeForgiving (hexcuse : ∀ e, p.excuse e → e.fault ≠ .badSelector) {n : ν}
    (hn : p.inside n) :
    p.Runs Eq (p.left.matchesSomeForgiving (p.left.probes forgive branches) n)
      (p.right.matchesSomeForgiving (p.right.probes forgive' branches) n) := by
  rw [Context.probes_eq, Context.probes_eq, Context.matchesSomeForgiving,
    Context.matchesSomeForgiving, anyM_map, anyM_map]
  refine .anyM (.of_subset hk) fun c hc => (h.matchesChain hc hn).tryCatch (fun e he => ?_)
    fun e he => if_neg (by simpa using hexcuse e he)
  split
  · exact .pure rfl
  · exact .throw he

omit h in
theorem holdsSome {n : ν} (hn : p.inside n) :
    p.Runs Eq (Context.holdsSome (p.left.probes forgive branches) n)
      (Context.holdsSome (p.right.probes forgive' branches) n) := by
  rw [Context.probes_eq, Context.probes_eq, Context.holdsSome, Context.holdsSome, anyM_map,
    anyM_map]
  exact .anyM (.of_subset hk) fun c hc => hc _ c.last_mem_compounds n hn

end Alike

/-! ### Simple selectors -/

/-- The type selectors in a simple selector fail only as both contexts may. -/
def Admits (p : Pairing ν) (s : Simple) : Prop :=
  ∀ t, s = .type t → ∀ n, p.inside n → ∀ e,
    selectsType? p.left.tree.toLinks t n = .error e → p.meets e

theorem plain_pure {s : Simple} (hs : s.isPlain = true) (ctx : Context ν) (forgive : Bool) (n : ν) :
    ∃ b, ctx.holdsSimple forgive s n = pure b := by
  have hplace : ∀ element : ν → Eval ν Bool, (∃ b, element n = pure b) →
      ∃ b, ctx.onElements element n = pure b := by
    rintro element ⟨b, hb⟩
    unfold Context.onElements Context.byPlace
    split
    · exact ⟨b, hb⟩
    · exact ⟨false, rfl⟩
    · exact ⟨false, rfl⟩
  cases s
  case keyword k =>
    refine hplace _ ?_
    cases k
    case onlyChild | onlyOfType => cases hs
    all_goals exact ⟨_, rfl⟩
  case id | className | attr | lang | dir => exact hplace _ ⟨_, rfl⟩
  all_goals cases hs

namespace Alike

variable (h : p.Alike)
include h

theorem byPlace {element element' : ν → Eval ν Bool} {shadowRoot shadowRoot' : ν → ν → Eval ν Bool}
    {n : ν} (hn : p.inside n) (he : p.Runs Eq (element n) (element' n))
    (hs : ∀ host, p.inside host → p.Runs Eq (shadowRoot host n) (shadowRoot' host n)) :
    p.Runs Eq (p.left.byPlace element shadowRoot n) (p.right.byPlace element' shadowRoot' n) := by
  unfold Context.byPlace
  rw [h.place_eq n hn]
  cases hp : p.left.place n with
  | element => exact he
  | shadowRoot host => exact hs host (h.inside_host n host hn hp)
  | elsewhere => exact .pure rfl

theorem onElements {element element' : ν → Eval ν Bool} {n : ν} (hn : p.inside n)
    (he : p.Runs Eq (element n) (element' n)) :
    p.Runs Eq (p.left.onElements element n) (p.right.onElements element' n) :=
  h.byPlace hn he fun _ _ => .pure rfl

theorem onHosts {test test' : ν → Eval ν Bool} {n : ν} (hn : p.inside n)
    (hs : ∀ host, p.inside host → p.Runs Eq (test host) (test' host)) :
    p.Runs Eq (p.left.onHosts test n) (p.right.onHosts test' n) :=
  h.byPlace hn (.pure rfl) hs

theorem onBoth {test test' : ν → Eval ν Bool} {n : ν} (hn : p.inside n)
    (he : p.Runs Eq (test n) (test' n)) :
    p.Runs Eq (p.left.onBoth test n) (p.right.onBoth test' n) :=
  h.byPlace hn he fun _ _ => he

theorem plain {s : Simple} (hs : s.isPlain = true) (forgive : Bool) {n : ν} (hn : p.inside n) :
    p.Runs Eq (p.left.holdsSimple forgive s n) (p.right.holdsSimple forgive s n) := by
  obtain ⟨b, hb⟩ := plain_pure hs p.left forgive n
  rw [h.plain_eq s hs forgive n hn, hb]
  exact .pure rfl

theorem holdsType {t : TypeSelector} (ht : p.Admits (.type t)) (forgive : Bool) {n : ν}
    (hn : p.inside n) :
    p.Runs Eq (p.left.holdsType forgive t n) (p.right.holdsType forgive t n) := by
  unfold Context.holdsType
  rw [h.selectsType_eq t n hn]
  split
  · exact .pure rfl
  · rename_i e he
    split
    · exact .pure rfl
    · exact .throw (ht t rfl n hn e he)

theorem selectChildren (form : NthForm) {passes passes' : Option (ν → Eval ν Bool)}
    (hpasses : Option.Rel (fun q q' => ∀ m, p.inside m → p.Runs Eq (q m) (q' m)) passes passes')
    {n : ν} (hn : p.inside n) :
    p.Runs Eq (p.left.selectChildren form passes n) (p.right.selectChildren form passes' n) := by
  have hcounted : ∀ nodes nodes', p.Same nodes nodes' →
      p.Runs Eq (pure (selectAmong p.left.tree.toLinks form nodes) : Eval ν (List ν))
        (pure (selectAmong p.right.tree.toLinks form nodes')) := fun nodes nodes' hnodes =>
    .pure (by rw [hnodes.eq, h.selectAmong_eq form nodes hnodes.mem])
  unfold Context.selectChildren
  rcases hpasses with hpasses | _
  · exact (Parallel.filterM (h.elementChildren n hn) hpasses).bind hcounted
  · exact (Parallel.pure (h.elementChildren n hn)).bind hcounted

/-- Siblings are counted in parallel. -/
theorem isNth (form : NthForm) {of of' : Option (ListId × (ν → Eval ν Bool))}
    (hof : Option.Rel (fun q q' => q.1 = q'.1 ∧ ∀ m, p.inside m → p.Runs Eq (q.2 m) (q'.2 m)) of of')
    {n : ν} (hn : p.inside n) : p.Runs Eq (p.left.isNth form of n) (p.right.isNth form of' n) := by
  unfold Context.isNth
  rw [h.parent_eq n hn]
  cases hp : p.left.tree.parent n with
  | none =>
    rcases hof with ⟨-, hpasses⟩ | _
    · exact (hpasses n hn).bind_eq fun b => .pure rfl
    · exact .pure rfl
  | some m =>
    have hm := h.inside_parent n m hn hp
    have hkey : of'.map Prod.fst = of.map Prod.fst := by
      rcases hof with ⟨hid, -⟩ | _
      · simp [hid]
      · rfl
    have hselect : p.Runs Eq (p.left.selectChildren form (of.map Prod.snd) m)
        (p.right.selectChildren form (of'.map Prod.snd) m) := by
      refine h.selectChildren form ?_ hm
      rcases hof with ⟨-, hpasses⟩ | _
      · exact .some hpasses
      · exact .none
    dsimp only
    rw [hkey]
    exact (Parallel.remembered hselect).bind_eq fun selected => .pure rfl

theorem holdsKeyword (k : Keyword) (forgive : Bool) {n : ν} (hn : p.inside n) :
    p.Runs Eq (p.left.holdsSimple forgive (.keyword k) n)
      (p.right.holdsSimple forgive (.keyword k) n) := by
  have honly : ∀ ofType, p.Runs Eq (p.left.isOnly ofType n) (p.right.isOnly ofType n) := by
    intro ofType
    refine (h.isNth _ .none hn).bind_eq fun b => ?_
    cases b with
    | true => exact h.isNth _ .none hn
    | false => exact .pure rfl
  cases k
  case onlyChild => exact h.onElements hn (honly false)
  case onlyOfType => exact h.onElements hn (honly true)
  all_goals exact h.plain rfl forgive hn

/-- A simple selector is tested in parallel, if nothing that is forgiven is an
excuse. -/
theorem holdsSimple (hexcuse : ∀ e, p.excuse e → e.fault ≠ .badSelector) (s : Simple)
    (hs : s.All p.Admits) (forgive : Bool) {n : ν} (hn : p.inside n) :
    p.Runs Eq (p.left.holdsSimple forgive s n) (p.right.holdsSimple forgive s n) := by
  induction s using Simple.induct generalizing forgive n with
  | h s ih =>
    have hk : ∀ forgive, ∀ c ∈ s.branches, ∀ k ∈ c.compounds, p.TestsAlike forgive forgive k := by
      intro forgive c hc k hk n hn
      rw [Context.holds_compoundProbe, Context.holds_compoundProbe]
      refine .allM (.of_subset fun s' hs' => hs') fun s' hs' => ?_
      exact ih c hc k hk s' hs' (hs.nested c hc k hk s' hs') forgive hn
    cases s with
    | pseudoElement name => exact h.onElements hn (h.complain _ rfl)
    | type t => exact h.onElements hn (h.holdsType hs.self forgive hn)
    | matchesAny branches => exact h.onBoth hn (h.matchesSomeForgiving (hk true) hexcuse hn)
    | matchesNone branches =>
      rw [Context.holdsSimple, Context.holdsSimple]
      exact h.onBoth hn ((h.matchesSome (hk false) hn).bind_eq fun b => .pure rfl)
    | has branches => exact h.onElements hn (h.hasSome (hk forgive) hn)
    | nth form of =>
      refine h.onElements hn (h.isNth form ?_ hn)
      rcases of with _ | ⟨id, branches⟩
      · exact .none
      · exact .some ⟨rfl, fun m hm => h.matchesSome (hk false) hm⟩
    | host compounds =>
      rcases compounds with _ | branches
      · exact h.onHosts hn fun _ _ => .pure rfl
      · exact h.onHosts hn fun host hhost => holdsSome (hk forgive) hhost
    | hostContext compounds =>
      refine h.onHosts hn fun host hhost => ?_
      exact .anyM (h.elementLine host hhost) fun m hm => holdsSome (hk forgive) hm
    | keyword k => exact h.holdsKeyword k forgive hn
    | never => exact .pure rfl
    | unsupported name => exact h.onElements hn (h.complain _ rfl)
    | _ => exact h.plain rfl forgive hn

end Alike

end Pairing

end Query

end DomQuery
