import DomQuery.Proofs.Selector.Spelled
import DomQuery.Proofs.Selector.Steps

/-!
# Reading arguments and components that were written

A simple selector is read back from its text, up to the numbers of the lists in it, as soon
as the lists in its argument are. This holds of all simple selectors but those that keep
the text of their argument, or words of it.

* `Gives`: a reader succeeds, whatever the number with which it begins.
* `Argument.spells`: the argument of a pseudo-class.
* `Component.spells`: a simple selector, in front of what may follow it.
-/

namespace DomQuery.Selector

open DomQuery.Css DomQuery.Text

/-! ### Readers that succeed -/

section Readers

variable {α β : Type}

/-- Whatever the number with which it begins, the reader comes to a result that satisfies `P`. -/
def Gives (x : Read α) (P : α → Prop) : Prop :=
  ∀ n, ∃ a m, x.run.run n = (.ok a, m) ∧ P a

namespace Gives

variable {P : α → Prop} {Q : β → Prop} {x : Read α}

protected theorem pure {a : α} (h : P a) : Gives (pure a) P :=
  fun n => ⟨a, n, rfl, h⟩

protected theorem bind {f : α → Read β} (h : Gives x P) (hf : ∀ a, P a → Gives (f a) Q) :
    Gives (x >>= f) Q := by
  intro n
  obtain ⟨a, m, hx, ha⟩ := h n
  obtain ⟨b, m', hb, hQ⟩ := hf a ha m
  refine ⟨b, m', ?_, hQ⟩
  rw [run_bind, hx]
  exact hb

protected theorem map {f : α → β} (h : Gives x P) (hf : ∀ a, P a → Q (f a)) : Gives (f <$> x) Q := by
  rw [map_eq_pure_bind]
  exact h.bind fun a ha => .pure (hf a ha)

protected theorem attempt (h : Gives x P) : Gives (attempt x) fun r => ∃ a, r = some a ∧ P a := by
  intro n
  obtain ⟨a, m, hx, ha⟩ := h n
  refine ⟨some a, m, ?_, a, rfl, ha⟩
  rw [run_attempt, hx]
  rfl

protected theorem mapM {ι κ : Type} {f : ι → Read α} {R : α → κ → Prop} {is : List ι} {ks : List κ}
    (h : List.Forall₂ (fun i k => Gives (f i) fun a => R a k) is ks) :
    Gives (is.mapM f) fun as => List.Forall₂ R as ks := by
  induction h with
  | nil => exact .pure .nil
  | cons hik _ ih =>
    rw [List.mapM_cons]
    exact hik.bind fun a ha => ih.bind fun as has => .pure (.cons ha has)

end Gives

theorem gives_lift {result : Except ReadError α} {a : α} (h : result = .ok a) :
    Gives (lift result) fun b => b = a := by
  subst h
  exact .pure rfl

end Readers

/-! ### Arguments -/

/-- The argument is kept as words or as text. -/
def Argument.isVerbatim : Argument → Bool
  | .words _ | .raw _ => true
  | _ => false

/-- Nothing or the end of a block follows. -/
def EndsList (rest : List Char) : Prop :=
  ∀ c ∈ rest.head?, c = ')'

/-- The text of the list, also with blanks in front of it, is read as the list. -/
def SelectorList.ReadsBack (list : SelectorList) : Prop :=
  ∀ k rest, (list.selectors = [] → k = 0) → EndsList rest →
    ∃ vs, Spells (List.replicate k ' ' ++ list.text.toList) vs rest ∧
      ∀ forgiving, (list.selectors = [] → forgiving = true) →
        Gives (readList forgiving (Item.ofValues vs)) fun list' => list'.unnumbered = list.unnumbered

/-- The same argument but for the numbers of its lists. -/
def Argument.SameAs (a b : Argument) : Prop :=
  Argument.renumber? (fun _ => ⟨0⟩) (some a) = Argument.renumber? (fun _ => ⟨0⟩) (some b)

section Arguments

variable {name : String} {rest : List Char}

theorem endsList_paren (rest : List Char) : EndsList (')' :: rest) := by
  rintro _ ⟨⟩
  rfl

theorem gives_readNth {a b : Int} {vs : List Value} {allowOf : Bool}
    (hstep : readStep Item.first (Item.ofValues vs) = .ok ((a, b), [])) :
    Gives (readNth allowOf (Item.ofValues vs)) fun a' => a'.SameAs (.nth a b none) := by
  refine (gives_lift hstep).bind ?_
  rintro _ rfl
  cases allowOf
  · exact .pure rfl
  · exact .pure rfl

/-- The word `of` between blanks, the second of which is a part of what follows. -/
def wordOf : List Value :=
  blankValues 1 ++ [.token (.ident "of")]

theorem spells_of (rest : List Char) : Spells [' ', 'o', 'f'] wordOf (' ' :: rest) := by
  have hblank : Spells (List.replicate 1 ' ') (blankValues 1) (['o', 'f'] ++ ' ' :: rest) :=
    spells_blanks 1 (by simp [isSpace])
  have hname : IsName "of" := ⟨by decide, by decide⟩
  have hof : Spells (identifier "of").toList [.token (.ident "of")] (' ' :: rest) :=
    spells_ident hname (endsName_cons (by decide)) (by simp)
  have htext : (identifier "of").toList = ['o', 'f'] := by decide
  rw [htext] at hof
  exact hblank.append hof

theorem gives_readNth_of {a b : Int} {vs ws : List Value} {list : SelectorList}
    (hstep : ∀ after, readOffset Item.first after = .ok (0, after) →
      readStep Item.first (Item.ofValues vs ++ after) = .ok ((a, b), after))
    (hlist : Gives (readList false (Item.ofValues ws)) fun list' =>
      list'.unnumbered = list.unnumbered) :
    Gives (readNth true (Item.ofValues (vs ++ (wordOf ++ ws)))) fun a' =>
      a'.SameAs (.nth a b (some list)) := by
  have hafter : afterOf? (Item.ofValues (wordOf ++ ws)) = some (Item.ofValues ws) := by
    have hlower : lower "of" = "of" := by decide +kernel
    change (if lower "of" == "of" then _ else _) = _
    rw [hlower]
    rfl
  rw [Item.ofValues_append]
  refine (gives_lift (hstep (Item.ofValues (wordOf ++ ws)) rfl)).bind ?_
  rintro _ rfl
  simp only [if_true, hafter]
  exact hlist.bind fun list' hl =>
    .pure (congrArg (fun list => some (Argument.nth a b (some list))) hl)

theorem Argument.spells {a : Argument} (h : a.Fits name) (hv : a.isVerbatim = false)
    (hlists : ∀ list ∈ a.lists, list.ReadsBack) (rest : List Char) :
    ∃ vs, Spells a.text.toList vs (')' :: rest) ∧
      ∀ source, Gives (readArgument name (Item.ofValues vs) source) fun a' => a'.SameAs a := by
  rcases a with list | ⟨a, b, list?⟩ | texts | text
  · obtain ⟨forgiving, hforgiving, hread⟩ := h
    obtain ⟨vs, hspells, hlist⟩ := hlists list (List.mem_singleton.mpr rfl) 0 _ (fun _ => rfl)
      (endsList_paren rest)
    refine ⟨vs, hspells, fun source => ?_⟩
    rw [hread]
    refine (hlist forgiving hforgiving).map fun list' hl => ?_
    exact congrArg (fun list => some (Argument.selectors list)) hl
  · obtain ⟨ha, hb, allowOf, hof, hread⟩ := h
    rcases list? with _ | list
    · obtain ⟨vs, hspells, hstep⟩ := spells_stepText ha hb ⟨rest, .inl rfl⟩
      refine ⟨vs, hspells, fun source => ?_⟩
      rw [hread]
      have hall := hstep [] rfl
      rw [List.append_nil] at hall
      exact gives_readNth hall
    · obtain ⟨rfl, hne⟩ := hof list rfl
      obtain ⟨ws, hspells, hlist⟩ := hlists list (List.mem_singleton.mpr rfl) 1 _
        (fun hnil => absurd hnil hne) (endsList_paren rest)
      have hrest : EndsStep ([' ', 'o', 'f'] ++ (List.replicate 1 ' ' ++ list.text.toList) ++
          ')' :: rest) := ⟨_, .inr rfl⟩
      obtain ⟨vs, hstepText, hstep⟩ := spells_stepText ha hb hrest
      refine ⟨vs ++ (wordOf ++ ws), ?_, fun source => ?_⟩
      · have htext : (Argument.nth a b (some list)).text.toList = (stepText a b).toList ++
            ([' ', 'o', 'f'] ++ (List.replicate 1 ' ' ++ list.text.toList)) := by
          simp [Argument.text]
        rw [htext]
        exact hstepText.append ((spells_of _).append hspells)
      · rw [hread]
        exact gives_readNth_of hstep (hlist false fun hnil => absurd hnil hne)
  · cases hv
  · cases hv

end Arguments

/-! ### Simple selectors -/

/-- The component has an argument that is kept as words or as text. -/
def Component.isVerbatim : Component → Bool
  | .pseudoClass _ (some argument) => argument.isVerbatim
  | .pseudoElement _ argument => argument.isSome
  | _ => false

/-- The first value does not belong to what separates simple selectors. -/
structure Opens (v : Value) : Prop where
  blank : (Item.ofValue v).first.isWhitespace = false
  combinator : combinator? (Item.ofValue v) = none

/-- The values are read as the simple selector, up to the numbers of lists. -/
structure Component.ReadsBack (s : Component) (v : Value) (tail : List Value) : Prop where
  opens : Opens v
  bar : s.isType = false → v.first ≠ .delim '|'
  comma : ∀ w ∈ v :: tail, w.first ≠ .comma
  reads : ∀ after, (s.isType = true → Unbarred after) →
    Gives (readSimple (.ofValue v) (Item.ofValues tail ++ after)) fun r =>
      r.1.unnumbered = s.unnumbered ∧ r.2 = after

theorem Component.ReadsBack.of_pure {s : Component} {v : Value} {tail : List Value} (hv : Opens v)
    (hbar : s.isType = false → v.first ≠ .delim '|') (hcomma : ∀ w ∈ v :: tail, w.first ≠ .comma)
    (h : ∀ after, (s.isType = true → Unbarred after) →
      readSimple (.ofValue v) (Item.ofValues tail ++ after) = pure (s, after)) :
    s.ReadsBack v tail := by
  refine ⟨hv, hbar, hcomma, fun after hafter => ?_⟩
  rw [h after hafter]
  exact .pure ⟨rfl, rfl⟩

section Simple

variable {name : String} {rest : List Char}

theorem TypeSelector.spells {t : TypeSelector} (h : t.Sound) (hrest : Bounds rest) :
    ∃ v tail, Spells t.text.toList (v :: tail) rest ∧ (Component.type t).ReadsBack v tail := by
  obtain ⟨qualifier, localName⟩ := t
  obtain ⟨token, hspells, hname, hhead⟩ := spells_localName h.localName hrest
  have htoken : token ≠ .comma ∧ Opens (.token token) := by
    cases hname with
    | ident => exact ⟨nofun, rfl, rfl⟩
    | star => exact ⟨nofun, rfl, rfl⟩
  rw [text, String.toList_append]
  rcases qualifier with _ | q
  · refine ⟨.token token, [], hspells, .of_pure htoken.2 nofun ?_ fun after hafter => ?_⟩
    · exact List.forall_mem_singleton.mpr htoken.1
    · exact readSimple_of_names hname (hafter rfl)
  · have hqualifier := (Qualifier.spells (h.qualifier q rfl) hhead).append hspells
    obtain ⟨v, tail, hv, hopens, hcomma⟩ : ∃ v tail, q.values = v :: tail ∧ Opens v ∧
        ∀ w ∈ q.values, w.first ≠ .comma := by
      cases q
      all_goals exact ⟨_, _, rfl, ⟨rfl, rfl⟩, by simp [Qualifier.values, Value.first]⟩
    refine ⟨v, tail ++ [.token token], ?_, .of_pure hopens (fun h => by cases h) ?_ fun after _ => ?_⟩
    · rw [hv] at hqualifier
      exact hqualifier
    · rw [← List.cons_append, ← hv]
      exact List.forall_mem_append.mpr ⟨hcomma, List.forall_mem_singleton.mpr htoken.1⟩
    · refine readSimple_of_qualified q hname ?_
      rw [← q.ofValues_values, hv, Item.ofValues_append, List.append_assoc]
      rfl

theorem Component.spells_id (h : IsName name) (hrest : Bounds rest) :
    ∃ v tail, Spells (Component.id name).text.toList (v :: tail) rest ∧
      (Component.id name).ReadsBack v tail := by
  refine ⟨.token (.idHash name), [], ?_, .of_pure ⟨rfl, rfl⟩ nofun ?_ fun _ _ => rfl⟩
  · have hscan := scan?_idHash h hrest.endsName
    rw [text, String.toList_append]
    exact spells_token hscan rfl
  · exact List.forall_mem_singleton.mpr nofun

theorem Component.spells_className (h : IsName name) (hrest : Bounds rest) :
    ∃ v tail, Spells (Component.className name).text.toList (v :: tail) rest ∧
      (Component.className name).ReadsBack v tail := by
  refine ⟨.token (.delim '.'), [.token (.ident name)], ?_,
    .of_pure ⟨rfl, rfl⟩ nofun ?_ fun _ _ => rfl⟩
  · have hname := spells_ident h hrest.endsName (hrest.head?_ne (by decide))
    have hdot : Spells ['.'] [.token (.delim '.')] ((identifier name).toList ++ rest) :=
      spells_dot (startsDigit_of_startsIdent (startsIdent_identifier h rest))
    rw [text, String.toList_append]
    exact hdot.append hname
  · simp [Value.first]

theorem Component.spells_attr {a : AttributeSelector} (h : a.Sound) (rest : List Char) :
    ∃ v tail, Spells (Component.attr a).text.toList (v :: tail) rest ∧
      (Component.attr a).ReadsBack v tail := by
  refine ⟨.block .openSquare a.values a.source, [], AttributeSelector.spells h rest,
    .of_pure ⟨rfl, rfl⟩ nofun ?_ fun after _ => ?_⟩
  · exact List.forall_mem_singleton.mpr nofun
  · rw [a.ofValue_block]
    rfl

/-- A name after one colon or two. -/
theorem spells_colon_name (h : IsName name) (hrest : Bounds rest) :
    Spells (':' :: (identifier name).toList) [.token .colon, .token (.ident name)] rest :=
  (spells_colon _).append (spells_ident h hrest.endsName (hrest.head?_ne (by decide)))

theorem Component.spells_keyword (h : IsLowerName name) (hrest : Bounds rest) :
    ∃ v tail, Spells (Component.pseudoClass name none).text.toList (v :: tail) rest ∧
      (Component.pseudoClass name none).ReadsBack v tail := by
  refine ⟨.token .colon, [.token (.ident name)], ?_, .of_pure ⟨rfl, rfl⟩ nofun ?_ fun after _ => ?_⟩
  · have htext : (Component.pseudoClass name none).text.toList = ':' :: (identifier name).toList := by
      simp [text, Argument.parenthesized]
    rw [htext]
    exact spells_colon_name h.1 hrest
  · simp [Value.first]
  · change pure (Component.pseudoClass (lower name) none, after) = _
    rw [h.2]

theorem Component.spells_element (h : IsLowerName name) (hrest : Bounds rest) :
    ∃ v tail, Spells (Component.pseudoElement name none).text.toList (v :: tail) rest ∧
      (Component.pseudoElement name none).ReadsBack v tail := by
  refine ⟨.token .colon, [.token .colon, .token (.ident name)], ?_,
    .of_pure ⟨rfl, rfl⟩ nofun ?_ fun after _ => ?_⟩
  · have htext : (Component.pseudoElement name none).text.toList =
        [':'] ++ ':' :: (identifier name).toList := by
      simp [text]
    rw [htext]
    exact (spells_colon _).append (spells_colon_name h.1 hrest)
  · simp [Value.first]
  · change pure (Component.pseudoElement (lower name) none, after) = _
    rw [h.2]

/-- What follows `url` and a bracket is not read as a list or a step. -/
theorem Argument.Fits.eqFold_url {a : Argument} (h : a.Fits name) (hv : a.isVerbatim = false)
    (hlower : lower name = name) : eqFold name "url" = false := by
  refine Bool.eq_false_iff.mpr fun hurl => ?_
  have hname : name = "url" := by
    have hfold : lower name = lower "url" := beq_iff_eq.mp hurl
    rw [hlower] at hfold
    exact hfold.trans (by decide +kernel)
  subst hname
  have hraw : readArgument "url" [] "" = pure (.raw "") := by
    simp [readArgument]
  rcases a with list | ⟨a, b, list?⟩ | texts | text
  · obtain ⟨forgiving, -, hread⟩ := h
    have hrun := congrArg (fun x : Read Argument => (x.run.run 0).1) ((hread [] "").symm.trans hraw)
    cases forgiving <;> cases hrun
  · obtain ⟨-, -, allowOf, -, hread⟩ := h
    have hrun := congrArg (fun x : Read Argument => (x.run.run 0).1) ((hread [] "").symm.trans hraw)
    cases hrun
  · cases hv
  · cases hv

theorem Component.spells_functional {a : Argument} (h : IsLowerName name) (ha : a.Fits name)
    (hv : a.isVerbatim = false) (hlists : ∀ list ∈ a.lists, list.ReadsBack) (rest : List Char) :
    ∃ v tail, Spells (Component.pseudoClass name (some a)).text.toList (v :: tail) rest ∧
      (Component.pseudoClass name (some a)).ReadsBack v tail := by
  obtain ⟨vs, hspells, hread⟩ := Argument.spells ha hv hlists rest
  refine ⟨.token .colon, [.block (.function name) vs a.text.toList], ?_, ⟨rfl, rfl⟩, nofun, ?_,
    fun after _ => ?_⟩
  · have htext : (Component.pseudoClass name (some a)).text.toList =
        [':'] ++ ((identifier name).toList ++ ['('] ++ a.text.toList ++ [')']) := by
      simp [text, Argument.parenthesized]
    rw [htext]
    exact (spells_colon _).append (hspells.function h.1 (ha.eqFold_url hv h.2))
  · simp [Value.first]
  · change Gives (readArgument (lower name) (Item.ofValues vs) _ >>= fun a' =>
      pure (Component.pseudoClass (lower name) (some a'), after)) _
    rw [h.2]
    refine (hread _).bind fun a' ha' => .pure ⟨?_, rfl⟩
    exact congrArg (Component.pseudoClass name) ha'

/-- A simple selector is read back from its text, in front of what may follow it. -/
theorem Component.spells {s : Component} (hs : ∀ c, s ≠ .combinator c) (h : s.Fits)
    (hv : s.isVerbatim = false) (hlists : ∀ list ∈ s.lists, list.ReadsBack) (hrest : Bounds rest) :
    ∃ v tail, Spells s.text.toList (v :: tail) rest ∧ s.ReadsBack v tail := by
  rcases s with c | t | name | name | a | ⟨name, _ | a⟩ | ⟨name, _ | text⟩
  · exact absurd rfl (hs c)
  · exact TypeSelector.spells h hrest
  · exact spells_id h hrest
  · exact spells_className h hrest
  · exact spells_attr h rest
  · exact spells_keyword h.1 hrest
  · exact spells_functional h.1 (h.2 a rfl) hv hlists rest
  · exact spells_element h hrest
  · cases hv

end Simple

end DomQuery.Selector
