import DomQuery.Proofs.Selector.Origin

/-!
# Type selectors inside of compounds

In the grammar a compound begins with its type selector, if it has one. Reading does not
look at what a simple selector follows, so a type selector may also stand behind another
simple selector, as in `.x*` or `[a]b`. It does so where the two touch in the text: a name,
a star or a bar that nothing but a comment separates from the simple selector before it.

* `Touches`: a type selector touches the simple selector before it.
* `typesFirst_of_ofText`: type selectors begin their compounds exactly where none touches.
-/

namespace DomQuery.Selector

open DomQuery.Css DomQuery.Text

/-! ### Tokens that touch -/

/-- A name or a star. -/
def isNamed : Token → Bool
  | .ident _ | .delim '*' => true
  | _ => false

/-- The last token of a simple selector. -/
def endsSimple : Token → Bool
  | .ident _ | .delim '*' | .idHash _ | .openSquare | .function _ => true
  | _ => false

/-- A name behind this token belongs to what it began. -/
def announces : Token → Bool
  | .delim '.' | .delim '|' | .colon => true
  | _ => false

/-- Behind `last`, which ends a simple selector, `t` begins a type selector: it is a name or a
star, or a bar, unless `last` is all that was written of a type selector. -/
def TouchesAt (before last t : Token) : Prop :=
  endsSimple last = true ∧ (isNamed t = true ∨
    t = .delim '|' ∧ (isNamed last = true → announces before = true))

/-- Somewhere in the tokens a type selector begins directly behind a simple selector; the tokens
`before` and `last` come first. -/
def TouchesFrom (before last : Token) : List Token → Prop
  | [] => False
  | t :: rest => TouchesAt before last t ∨ TouchesFrom last t rest

/-- In the branch a type selector begins directly behind another simple selector. -/
def Touches (branch : List Value) : Prop :=
  TouchesFrom (.whitespace " ") (.whitespace " ") (branch.map Value.first)

/-- What is known after some items: whether a compound may go on here, and that a type selector
without a bar was read as far as it goes. -/
structure Settled (before last : Token) (space : Bool) (components : List Component)
    (items : List Item) : Prop where
  ends : endsSimple last = (endsCompound components && !space)
  quiet : announces last = false
  unbarred : isNamed last = true → announces before = false → Unbarred items

section Steps

@[simp]
theorem Item.first_token (t : Token) : (Item.token t).first = t :=
  rfl

@[simp]
theorem Item.first_bracketed (contents : Except ReadError AttributeSelector) :
    (Item.bracketed contents).first = .openSquare :=
  rfl

@[simp]
theorem Item.first_function (name source : String) (argument : Read Argument) :
    (Item.function name argument source).first = .function name :=
  rfl

variable {before last : Token} {space : Bool} {components : List Component} {c : Component}
  {i : Item} {name : String} {after : List Item}

theorem announces_of_endsSimple {t : Token} (h : endsSimple t = true) : announces t = false := by
  unfold endsSimple at h
  split at h
  all_goals first | rfl | cases h

theorem Item.Names.isNamed_first (h : i.Names name) : isNamed i.first = true := by
  cases h <;> rfl

theorem Item.Names.endsSimple_first (h : i.Names name) : endsSimple i.first = true := by
  cases h <;> rfl

/-- After a simple selector, whose last token is `t`. -/
theorem Settled.of_simple {t : Token} (hc : endsCompound (c :: components) = true)
    (ht : endsSimple t = true) (h : isNamed t = true → announces before = false → Unbarred after) :
    Settled before t false (c :: components) after :=
  ⟨by rw [hc, ht]; rfl, announces_of_endsSimple ht, h⟩

/-- After a simple selector that does not end with a name, so that no bar goes on with it. -/
theorem Settled.of_isNamed {t : Token} (hc : endsCompound (c :: components) = true)
    (ht : endsSimple t = true) (h : isNamed t = false) :
    Settled before t false (c :: components) after :=
  .of_simple hc ht fun hn => absurd hn (by simp [h])

/-- After a simple selector whose name a colon, a dot or a bar announced. -/
theorem Settled.of_announces {t : Token} (hc : endsCompound (c :: components) = true)
    (ht : endsSimple t = true) (h : announces before = true) :
    Settled before t false (c :: components) after :=
  .of_simple hc ht fun _ hb => absurd hb (by simp [h])

/-- The first item of a simple selector shows whether it is a type selector, the others touch
nothing but each other. -/
theorem Settled.simple {taken : List Item}
    (h : Settled before last space components (taken ++ after)) (hc : c.MadeOf taken)
    (hafter : ∀ t, c = .type t → t.qualifier = none → Unbarred after) :
    ∃ before' last', Settled before' last' false (c :: joined space components) after ∧
      ∀ rest, TouchesFrom before last (taken.map Item.first ++ rest) ↔
        (c.isType = true ∧ endsSimple last = true) ∨ TouchesFrom before' last' rest := by
  cases hc with
  | @type i name hi =>
    refine ⟨last, i.first, .of_simple rfl hi.endsSimple_first fun _ _ => hafter _ rfl rfl,
      fun rest => ?_⟩
    simp [TouchesFrom, TouchesAt, hi.isNamed_first, Component.isType]
  | @qualified q i name hi =>
    refine ⟨.delim '|', i.first, .of_announces rfl hi.endsSimple_first rfl,
      fun rest => ?_⟩
    have hbar : isNamed last = true → q = .none → announces before = true := by
      rintro hl rfl
      exact Bool.of_not_eq_false fun hb => h.unbarred hl hb i name after hi rfl
    cases q with
    | none =>
      have hstart : TouchesAt before last (.delim '|') ↔ endsSimple last = true :=
        ⟨fun ht => ht.1, fun ht => ⟨ht, .inr ⟨rfl, fun hl => hbar hl rfl⟩⟩⟩
      have hname : ¬ TouchesAt last (.delim '|') i.first := fun ht => by cases ht.1
      simp [Qualifier.items, TouchesFrom, hstart, hname, Component.isType]
    | any | named =>
      simp [Qualifier.items, TouchesFrom, TouchesAt, isNamed, endsSimple,
        Component.isType, h.quiet]
  | id name =>
    refine ⟨last, .idHash name, .of_isNamed rfl rfl rfl, fun rest => ?_⟩
    simp [TouchesFrom, TouchesAt, isNamed, Component.isType]
  | attr a =>
    refine ⟨last, .openSquare, .of_isNamed rfl rfl rfl, fun rest => ?_⟩
    simp [TouchesFrom, TouchesAt, isNamed, Component.isType]
  | className name =>
    refine ⟨.delim '.', .ident name, .of_announces rfl rfl rfl, fun rest => ?_⟩
    simp [TouchesFrom, TouchesAt, isNamed, endsSimple, Component.isType]
  | keyword name | element name =>
    refine ⟨.colon, .ident name, .of_announces rfl rfl rfl, fun rest => ?_⟩
    simp [TouchesFrom, TouchesAt, isNamed, endsSimple, Component.isType]
  | functional name | functionalElement name =>
    refine ⟨.colon, .function name, .of_isNamed rfl rfl rfl, fun rest => ?_⟩
    simp [TouchesFrom, TouchesAt, isNamed, endsSimple, Component.isType]

/-- White space and combinators touch nothing. -/
theorem Settled.separator {t : Token} (hends : endsSimple t = false) (hquiet : announces t = false)
    (hc : (endsCompound components && !space) = false) :
    Settled last t space components after ∧
      ∀ rest, TouchesFrom before last (t :: rest) ↔ TouchesFrom last t rest := by
  have hname : isNamed t = false := by
    refine Bool.eq_false_iff.mpr fun hn => ?_
    unfold isNamed at hn
    split at hn
    all_goals first | cases hends | cases hn
  have hbar : t ≠ .delim '|' := by
    rintro rfl
    cases hquiet
  refine ⟨⟨by rw [hends, hc], hquiet, fun h => absurd h (by simp [hname])⟩, fun rest => ?_⟩
  simp [TouchesFrom, TouchesAt, hname, hbar]

theorem first_of_combinator? {c : Combinator} (h : combinator? i = some c) :
    endsSimple i.first = false ∧ announces i.first = false := by
  unfold combinator? at h
  split at h
  all_goals first | exact ⟨rfl, rfl⟩ | cases h

theorem first_of_isWhitespace {t : Token} (h : t.isWhitespace = true) :
    endsSimple t = false ∧ announces t = false := by
  cases t <;> first | exact ⟨rfl, rfl⟩ | cases h

end Steps

/-! ### Branches -/

theorem apart_readComponents {fuel n m : Nat} {space : Bool} {components out : List Component}
    {items : List Item} {before last : Token} (hlength : items.length ≤ fuel)
    (h : (readComponents fuel space components items).run.run n = (.ok out, m))
    (hs : Settled before last space components items) :
    out.reverse.IsChain (flip Apart) ↔ components.IsChain (flip Apart) ∧
      ¬ TouchesFrom before last (items.map Item.first) := by
  revert before last
  refine readComponents_induct (motive := fun space components items => ∀ {before last : Token},
    Settled before last space components items → (out.reverse.IsChain (flip Apart) ↔
      components.IsChain (flip Apart) ∧ ¬ TouchesFrom before last (items.map Item.first)))
    ?_ ?_ ?_ ?_ hlength h
  · rintro space components rfl - before last -
    simp [TouchesFrom]
  · intro space components item rest hspace ih before last hs
    obtain ⟨hends, hquiet⟩ := first_of_isWhitespace hspace
    obtain ⟨hs', htouches⟩ : Settled last item.first true components rest ∧ _ :=
      Settled.separator hends hquiet (by simp)
    rw [ih hs', List.map_cons, htouches]
  · intro space components item rest c hc ih before last hs
    obtain ⟨hends, hquiet⟩ := first_of_combinator? hc
    obtain ⟨hs', htouches⟩ : Settled last item.first false (.combinator c :: components) rest ∧ _ :=
      Settled.separator hends hquiet rfl
    rw [ih hs', List.map_cons, htouches, List.isChain_cons]
    simp [flip, Apart, Component.isType]
  · rintro space components _ c after ⟨taken, hc, rfl, hafter⟩ ih before last hs
    obtain ⟨before', last', hs', htouches⟩ := hs.simple hc hafter
    rw [ih hs', List.map_append, htouches, apart_cons_joined, ← hs.ends]
    simp [and_assoc]

/-- A branch that was read has type selectors only at the beginning of compounds, unless one
touches another simple selector. -/
theorem typesFirst_readOf {within : Complex} {branch : List Value} (h : within.ReadOf branch) :
    within.TypesFirst ↔ ¬ Touches branch := by
  obtain ⟨n, m, hrun⟩ := h
  rw [readComplex, map_eq_pure_bind, run_bind] at hrun
  rcases hr : (readComponents (Item.ofValues branch).length false [] (Item.ofValues branch)).run.run n
    with ⟨e | out, n'⟩
  · rw [hr] at hrun
    cases hrun
  · rw [hr] at hrun
    obtain ⟨hwithin, -⟩ := Prod.mk.inj hrun
    obtain rfl := Except.ok.inj hwithin
    have hfirsts : (Item.ofValues branch).map Item.first = branch.map Value.first := by
      rw [Item.ofValues_eq_map, List.map_map]
      exact List.map_congr_left fun v _ => Item.first_ofValue v
    have hstart : Settled (.whitespace " ") (.whitespace " ") false [] (Item.ofValues branch) :=
      ⟨rfl, rfl, fun h => by cases h⟩
    have hread := apart_readComponents (Nat.le_refl _) hr hstart
    rw [hfirsts, List.isChain_reverse] at hread
    rw [Complex.typesFirst_iff]
    exact Iff.trans hread (and_iff_right .nil)

/-- Every branch of a text that is read, in arguments as well, was read of values in the text, and
its type selectors begin their compounds exactly if none of them touches another simple selector
there. -/
theorem typesFirst_of_ofText {text : String} {list : SelectorList}
    (h : SelectorList.ofText text = .ok list) : ∀ inner ∈ list.allLists, ∀ within ∈ inner.selectors,
      ∃ branch, Stands branch (values text) ∧ within.ReadOf branch ∧
        (within.TypesFirst ↔ ¬ Touches branch) := by
  intro inner hi within hw
  obtain ⟨branch, hbranch, hread⟩ :=
    SelectorList.readIn_of_parse (mapError_eq_ok.mp h) inner hi within hw
  exact ⟨branch, hbranch, hread, typesFirst_readOf hread⟩

/-- A star that touches a class, beside a type selector that touches nothing. -/
theorem ofText_touching : SelectorList.ofText ".x*, :not(.y z)" = .ok (.mk ⟨0⟩
    [.mk [.className "x", .type ⟨none, "*"⟩],
      .mk [.pseudoClass "not" (some (.selectors (.mk ⟨1⟩
        [.mk [.className "y", .combinator .descendant, .type ⟨none, "z"⟩]])))]]) := by cbv

theorem typesFirst_of_ofText_nested : ∃ list, SelectorList.ofText ".x*, :not(.y z)" = .ok list ∧
    list.allLists.length = 2 ∧ ∀ inner ∈ list.allLists, ∀ within ∈ inner.selectors,
      ∃ branch, Stands branch (values ".x*, :not(.y z)") ∧ within.ReadOf branch ∧
        (within.TypesFirst ↔ ¬ Touches branch) :=
  ⟨_, ofText_touching, rfl, typesFirst_of_ofText ofText_touching⟩

/-- Not every text that is read keeps to the grammar of compounds. -/
theorem star_after_class : ¬ ∀ (text : String) (list : SelectorList),
    SelectorList.ofText text = .ok list →
      ∀ inner ∈ list.allLists, ∀ within ∈ inner.selectors, within.TypesFirst := by
  intro h
  have hfirst := h _ _ ofText_touching _ List.mem_cons_self _ List.mem_cons_self
  exact nomatch hfirst _ List.mem_cons_self _ List.mem_cons_self

end DomQuery.Selector
