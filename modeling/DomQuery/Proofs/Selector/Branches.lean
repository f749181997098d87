import DomQuery.Proofs.Css.CutOff
import DomQuery.Proofs.Css.Serialize
import DomQuery.Proofs.Selector.Reading
import DomQuery.Selector.Resolve

/-!
# Branches of forgiving lists

`:is()` and `:where()` leave out the branches that cannot be read. Each branch is read as
if it stood alone, so one that fails has no effect on the others, wherever in it the
fault is. For this, a branch has to be a text of its own: its brackets have partners, it
has no comma outside of them, and its last token is whole.

* `spells_branches`: the items between the commas of the list.
* `forgiving_branches`: what is read of a forgiving list.
-/

namespace DomQuery.Selector

open DomQuery.Css DomQuery.Text

/-! ### Items between commas -/

theorem Item.first_ofValue (v : Value) : (Item.ofValue v).first = v.first := by
  obtain t | ⟨opener, contents, source⟩ := v
  · rfl
  · unfold Item.ofValue
    split
    · rfl
    · rfl
    · rfl

theorem Item.ofValues_append (vs ws : List Value) :
    Item.ofValues (vs ++ ws) = Item.ofValues vs ++ Item.ofValues ws := by
  induction vs with
  | nil => rfl
  | cons v vs ih =>
    rw [List.cons_append, ofValues, ih]
    rfl

theorem isComma_ofValues {vs : List Value} (h : ∀ v ∈ vs, v.first ≠ .comma) :
    ∀ i ∈ Item.ofValues vs, i.isComma = false := by
  induction vs with
  | nil => exact fun i hi => absurd hi List.not_mem_nil
  | cons v vs ih =>
    obtain ⟨hv, hvs⟩ := List.forall_mem_cons.mp h
    refine List.forall_mem_cons.mpr ⟨?_, ih hvs⟩
    rw [Item.isComma, Item.first_ofValue]
    exact beq_false_of_ne hv

theorem splitCommas_of_forall {items : List Item} (h : ∀ i ∈ items, i.isComma = false) :
    splitCommas items = [items] := by
  induction items with
  | nil => rfl
  | cons i rest ih =>
    obtain ⟨hi, hrest⟩ := List.forall_mem_cons.mp h
    rw [splitCommas, hi, ih hrest]
    rfl

theorem splitCommas_append {items : List Item} (h : ∀ i ∈ items, i.isComma = false)
    (rest : List Item) :
    splitCommas (items ++ .token .comma :: rest) = items :: splitCommas rest := by
  induction items with
  | nil => rfl
  | cons i items ih =>
    obtain ⟨hi, hitems⟩ := List.forall_mem_cons.mp h
    rw [List.cons_append, splitCommas, hi, ih hitems]
    rfl

/-! ### Branches -/

/-- The text may stand between two commas: its brackets have partners, there is no comma
outside of them, and the last token is whole. -/
structure IsBranch (text : String) : Prop where
  balanced : Balanced (fun token => token ≠ .comma) (lex text.toList)
  whole : ¬ IsCutOff text.toList

/-- The items of a text. -/
def itemsOf (text : String) : List Item :=
  Item.ofValues (values text)

theorem IsBranch.spells {text : String} (h : IsBranch text) {rest : List Char} (hrest : Stops rest) :
    Spells text.toList (values text) rest :=
  (spells_values h.balanced h.whole hrest).1

theorem IsBranch.isComma {text : String} (h : IsBranch text) :
    ∀ i ∈ itemsOf text, i.isComma = false := by
  refine isComma_ofValues fun v hv heq => ?_
  rcases (spells_values h.balanced h.whole ⟨[], .inl rfl⟩).2 v hv with hne | hopener
  · exact hne heq
  · rw [heq] at hopener
    cases hopener

/-- The values of branches with commas between them. -/
theorem spells_branches {texts : List String} (h : ∀ text ∈ texts, IsBranch text) (hne : texts ≠ [])
    (rest : List Char) : ∃ vs, Spells (",".intercalate texts).toList vs (')' :: rest) ∧
      splitCommas (Item.ofValues vs) = texts.map itemsOf := by
  induction texts with
  | nil => exact absurd rfl hne
  | cons text texts ih =>
    obtain ⟨htext, htexts⟩ := List.forall_mem_cons.mp h
    rcases texts with _ | ⟨text', texts⟩
    · rw [String.intercalate_singleton]
      exact ⟨_, htext.spells ⟨rest, .inr rfl⟩, splitCommas_of_forall htext.isComma⟩
    · obtain ⟨vs, hspells, hsplit⟩ := ih htexts (List.cons_ne_nil _ _)
      have hcomma : Spells [','] [.token .comma]
          ((",".intercalate (text' :: texts)).toList ++ ')' :: rest) :=
        spells_token (show Token.scan? _ = some (.comma, _) from rfl) rfl
      refine ⟨values text ++ ([.token .comma] ++ vs), ?_, ?_⟩
      · rw [String.intercalate_cons_cons, String.toList_append, String.toList_append,
          List.append_assoc]
        exact (htext.spells ⟨_, .inl rfl⟩).append (hcomma.append hspells)
      · rw [Item.ofValues_append, Item.ofValues_append]
        exact (splitCommas_append htext.isComma _).trans (congrArg _ hsplit)

/-! ### What is read -/

/-- The branches of a text that is read alone, without their numbers; none if it cannot be read. -/
def accepted (text : String) : List Complex :=
  match SelectorList.ofText text with
  | .ok list => list.unnumbered.selectors
  | .error _ => []

/-- A branch that is read from the count `n` on, without its numbers; none if it cannot be read. -/
def readFrom (n : Nat) (items : List Item) : Option Complex :=
  (((readComplex items).run.run n).1.toOption).map Complex.unnumbered

theorem readFrom_eq {items : List Item} (h : ∀ i ∈ items, i.Sound) (n m : Nat) :
    readFrom n items = readFrom m items := by
  have halike : Alike Complex.Alike ((readComplex items).run.run n).1
      ((readComplex items).run.run m).1 := readsAlike_readComplex h n m
  unfold readFrom
  generalize ((readComplex items).run.run n).1 = read at halike ⊢
  generalize ((readComplex items).run.run m).1 = read' at halike ⊢
  rcases read with e | within <;> rcases read' with e' | within'
  · rfl
  · exact halike.elim
  · exact halike.elim
  · exact congrArg some halike.1

theorem IsBranch.accepted_eq {text : String} (h : IsBranch text) :
    accepted text = (readFrom 1 (itemsOf text)).toList := by
  have hlist : (readList false (itemsOf text)).run.run 0 =
      match (readComplex (itemsOf text)).run.run 1 with
      | (.ok within, n) => (.ok (.mk ⟨0⟩ [within]), n)
      | (.error e, n) => (.error e, n) := by
    have hfresh : freshId.run.run 0 = (.ok ⟨0⟩, 1) := rfl
    rw [readList, run_bind, hfresh, splitCommas_of_forall h.isComma]
    simp only [Bool.false_eq_true, if_false, List.map_cons, List.map_nil, List.mapM_cons,
      List.mapM_nil, run_bind, run_pure]
    rcases (readComplex (itemsOf text)).run.run 1 with ⟨_ | within, n⟩
    · rfl
    · rfl
  have htext : SelectorList.ofText text =
      ((readList false (itemsOf text)).run.run 0).1.mapError (.unreadable text) := rfl
  rw [accepted, htext, hlist, readFrom]
  rcases (readComplex (itemsOf text)).run.run 1 with ⟨_ | within, n⟩
  · rfl
  · simp [SelectorList.unnumbered]
    rfl

theorem run_attempt {α : Type} (x : Read α) (n : Nat) :
    (attempt x).run.run n = (.ok (x.run.run n).1.toOption, (x.run.run n).2) := by
  rw [attempt, run_tryCatch, map_eq_pure_bind, run_bind]
  rcases x.run.run n with ⟨_ | a, m⟩
  · rfl
  · rfl

theorem readList_forgiving {items : List Item} (h : ∀ i ∈ items, i.Sound) (n : Nat) :
    ∃ selectors m, (readList true items).run.run n = (.ok (.mk ⟨n⟩ selectors), m) ∧
      selectors.map Complex.unnumbered = (splitCommas items).filterMap (readFrom 1) := by
  have hmapM : ∀ (groups : List (List Item)) (n : Nat), (∀ group ∈ groups, ∀ i ∈ group, i.Sound) →
      ∃ found m, ((groups.map readComplex).mapM attempt).run.run n = (.ok found, m) ∧
        (found.filterMap fun s => s).map Complex.unnumbered = groups.filterMap (readFrom 1) := by
    intro groups
    induction groups with
    | nil => exact fun n _ => ⟨[], n, rfl, rfl⟩
    | cons group groups ih =>
      intro n hgroups
      obtain ⟨hgroup, hgroups⟩ := List.forall_mem_cons.mp hgroups
      obtain ⟨found, m, hrun, hfound⟩ := ih ((readComplex group).run.run n).2 hgroups
      refine ⟨((readComplex group).run.run n).1.toOption :: found, m, ?_, ?_⟩
      · rw [List.map_cons, List.mapM_cons, run_bind, run_attempt]
        simp only [run_bind, hrun, run_pure]
      · have hfrom : readFrom 1 group = _ := readFrom_eq hgroup 1 n
        rw [List.filterMap_cons, List.filterMap_cons, hfrom, readFrom]
        rcases ((readComplex group).run.run n).1 with e | within
        · exact hfound
        · exact congrArg (_ :: ·) hfound
  obtain ⟨found, m, hrun, hfound⟩ := hmapM (splitCommas items) (n + 1) fun group hg i hi =>
    h i ((infix_of_splitCommas hg).subset hi)
  refine ⟨found.filterMap fun s => s, m, ?_, hfound⟩
  have hfresh : freshId.run.run n = (.ok ⟨n⟩, n + 1) := rfl
  rw [readList, run_bind, hfresh]
  simp only [if_true, run_bind, hrun, run_pure]

/-- The argument of `:is()` with these branches. -/
theorem exists_spells_branches {texts : List String} (h : ∀ text ∈ texts, IsBranch text)
    (rest : List Char) : ∃ vs, Spells (",".intercalate texts).toList vs (')' :: rest) ∧
      (splitCommas (Item.ofValues vs)).filterMap (readFrom 1) = texts.flatMap accepted := by
  rcases texts with _ | ⟨text, texts⟩
  · exact ⟨[], spells_nil, rfl⟩
  · obtain ⟨vs, hspells, hsplit⟩ := spells_branches h (List.cons_ne_nil _ _) rest
    refine ⟨vs, hspells, ?_⟩
    rw [hsplit]
    clear hspells hsplit
    generalize text :: texts = texts at h
    induction texts with
    | nil => rfl
    | cons text texts ih =>
      obtain ⟨htext, htexts⟩ := List.forall_mem_cons.mp h
      rw [List.flatMap_cons, htext.accepted_eq, ← ih htexts, List.map_cons, List.filterMap_cons]
      rcases readFrom 1 (itemsOf text) with _ | within
      · rfl
      · rfl

/-- A text that is one pseudo-class with an argument. -/
theorem run_readList_pseudo {name source : String} {argument : Read Argument} {a : Argument} {m : Nat}
    (h : argument.run.run 1 = (.ok a, m)) :
    (readList false [.token .colon, .function name argument source]).run.run 0 =
      (.ok (.mk ⟨0⟩ [.mk [.pseudoClass (lower name) (some a)]]), m) := by
  have hfresh : freshId.run.run 0 = (.ok ⟨0⟩, 1) := rfl
  have hcolon : combinator? (.token .colon) = none := rfl
  have hcommas : ∀ i ∈ [Item.token .colon, .function name argument source], i.isComma = false :=
    List.forall_mem_cons.mpr ⟨rfl, List.forall_mem_singleton.mpr rfl⟩
  rw [readList, run_bind, hfresh, splitCommas_of_forall hcommas]
  simp only [Bool.false_eq_true, if_false, List.map_cons, List.map_nil, List.mapM_cons,
    List.mapM_nil, run_bind, run_pure, readComplex, map_eq_pure_bind, List.length_cons,
    List.length_nil, readComponents, Item.first, Token.isWhitespace, hcolon, readSimple, readPseudo,
    h]
  rfl

theorem values_call {name s : String} {vs : List Value} (h : IsName name)
    (hidentifier : identifier name = name) (hurl : eqFold name "url" = false)
    (hs : Spells s.toList vs [')']) :
    values (":" ++ name ++ "(" ++ s ++ ")") =
      [.token .colon, .block (.function name) vs s.toList] := by
  have hcolon : Spells [':'] [.token .colon]
      ((identifier name).toList ++ ['('] ++ s.toList ++ [')'] ++ []) :=
    spells_token (show Token.scan? _ = some (.colon, _) from rfl) rfl
  have hspells := hcolon.append (hs.function h hurl)
  rw [hidentifier] at hspells
  exact Spells.values_eq (by simpa using hspells)

/-- Forgiving lists are read branch by branch: what they hold is, in order, what is read of those
branches that can be read alone. -/
theorem forgiving_branches {name : String} (hname : name = "is" ∨ name = "where")
    {texts : List String} (h : ∀ text ∈ texts, IsBranch text) :
    (SelectorList.ofText (":" ++ name ++ "(" ++ ",".intercalate texts ++ ")")).map
        SelectorList.unnumbered =
      .ok (.mk ⟨0⟩ [.mk [.pseudoClass name (some (.selectors (.mk ⟨0⟩ (texts.flatMap accepted))))]]) := by
  obtain ⟨hidentifier, hisName, hlower, hurl⟩ : identifier name = name ∧ IsName name ∧
      lower name = name ∧ eqFold name "url" = false := by
    rcases hname with rfl | rfl
    · exact ⟨by decide, ⟨by decide, by decide⟩, by decide +kernel, by decide +kernel⟩
    · exact ⟨by decide, ⟨by decide, by decide⟩, by decide +kernel, by decide +kernel⟩
  obtain ⟨vs, hspells, hbranches⟩ := exists_spells_branches h []
  have hvalues := values_call hisName hidentifier hurl hspells
  have hsound : ∀ i ∈ Item.ofValues vs, i.Sound := by
    have hvalue := sound_values (":" ++ name ++ "(" ++ ",".intercalate texts ++ ")")
    rw [hvalues] at hvalue
    cases hvalue _ (List.mem_cons_of_mem _ (List.mem_singleton.mpr rfl)) with
    | block _ hcontents => exact sound_ofValues hcontents
  obtain ⟨selectors, m, hrun, hselectors⟩ := readList_forgiving hsound 1
  rw [hbranches] at hselectors
  have hargument : ∀ source, (readArgument (lower name) (Item.ofValues vs) source).run.run 1 =
      (.ok (.selectors (.mk ⟨1⟩ selectors)), m) := by
    intro source
    have hforgiving : (name == "is" || name == "where") = true := by simpa using hname
    rw [readArgument, hlower, if_pos hforgiving, map_eq_pure_bind, run_bind, hrun]
    rfl
  have hparse : SelectorList.parse (":" ++ name ++ "(" ++ ",".intercalate texts ++ ")") =
      .ok (.mk ⟨0⟩ [.mk [.pseudoClass name (some (.selectors (.mk ⟨1⟩ selectors)))]]) := by
    rw [SelectorList.parse, hvalues]
    refine (congrArg Prod.fst (run_readList_pseudo (hargument _))).trans ?_
    rw [hlower]
  have hlist : (SelectorList.mk ⟨1⟩ selectors).unnumbered = .mk ⟨0⟩ (texts.flatMap accepted) := by
    rw [SelectorList.unnumbered, SelectorList.renumber_mk, ← hselectors]
    rfl
  rw [SelectorList.ofText, hparse, ← hlist]
  exact congrArg Except.ok (SelectorList.renumber_mk _ _)

theorem isBranch_of_lex {text : String} (ls : List Lexeme) (hlex : lex text.toList = ls)
    (hbalanced : Balanced (fun token => token ≠ .comma) ls)
    (hlast : ∀ l ∈ ls.getLast?, l.isCutOff = false) : IsBranch text := by
  refine ⟨hlex ▸ hbalanced, ?_⟩
  rintro ⟨l, hl, hcut⟩
  rw [hlex] at hl
  exact Bool.false_ne_true ((hlast l hl).symm.trans hcut)

/-- A branch that fails in a block of its own, between two that can be read. -/
theorem forgiving_branches_nested : (∀ text ∈ ["a", ":not(b,)", ".d"], IsBranch text) ∧
    (SelectorList.ofText (":" ++ "is" ++ "(" ++ ",".intercalate ["a", ":not(b,)", ".d"] ++ ")")).map
      SelectorList.unnumbered =
    .ok (.mk ⟨0⟩ [.mk [.pseudoClass "is" (some (.selectors (.mk ⟨0⟩
      [.mk [.type ⟨none, "a"⟩], .mk [.className "d"]])))]]) := by
  have hname : IsBranch "a" :=
    isBranch_of_lex [⟨.ident "a", ['a']⟩] (by cbv)
      (.token (by decide) rfl .nil) (by decide)
  have hclass : IsBranch ".d" :=
    isBranch_of_lex [⟨.delim '.', ['.']⟩, ⟨.ident "d", ['d']⟩] (by cbv)
      (.token (by decide) rfl (.token (by decide) rfl .nil)) (by decide)
  have hblock : Balanced (fun token => token ≠ .comma) (⟨.function "not", ['n', 'o', 't', '(']⟩ ::
      ([⟨.ident "b", ['b']⟩, ⟨.comma, [',']⟩] ++ ⟨.closeParen, [')']⟩ :: [])) :=
    .block rfl (.token trivial rfl (.token trivial rfl .nil)) .nil
  have hfault : IsBranch ":not(b,)" :=
    isBranch_of_lex (⟨.colon, [':']⟩ :: _) (by cbv) (.token (by decide) rfl hblock) (by decide)
  have hbranch : ∀ text ∈ ["a", ":not(b,)", ".d"], IsBranch text := by
    simp [hname, hclass, hfault]
  have haccepted : ["a", ":not(b,)", ".d"].flatMap accepted =
      [.mk [.type ⟨none, "a"⟩], .mk [.className "d"]] := by cbv
  refine ⟨hbranch, (forgiving_branches (.inl rfl) hbranch).trans ?_⟩
  rw [haccepted]

end DomQuery.Selector
