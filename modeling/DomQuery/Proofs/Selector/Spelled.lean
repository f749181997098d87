import DomQuery.Proofs.Selector.Branches
import DomQuery.Proofs.Selector.Grammar
import DomQuery.Selector.Printer

/-!
# Reading simple selectors that were written

The text of a type selector or an attribute selector stands for the tokens it was read
from, whatever may follow it in a selector.

* `Bounds`: where the text of a simple selector may end.
* `Qualifier.spells`, `spells_localName`: the tokens of a type selector.
* `AttributeSelector.spells`: the block of an attribute selector.
* `readAttribute_values`: what is read of that block.
-/

namespace DomQuery.Selector

open DomQuery.Css DomQuery.Text

variable {c : Char} {name : String} {rest : List Char}

/-- What may follow a simple selector: nothing, or a character that ends it. -/
def Bounds (rest : List Char) : Prop :=
  ∀ c ∈ rest.head?, c ∈ [' ', ',', ')', '#', '.', '[', ':']

namespace Bounds

theorem cons (h : c ∈ [' ', ',', ')', '#', '.', '[', ':']) : Bounds (c :: rest) := by
  rintro _ ⟨⟩
  exact h

theorem head?_ne (h : Bounds rest) (hc : c ∉ [' ', ',', ')', '#', '.', '[', ':']) :
    rest.head? ≠ some c :=
  fun hhead => hc (h c hhead)

theorem endsName (h : Bounds rest) : EndsName rest := by
  intro c hc
  have hmem := h c hc
  simp only [List.mem_cons, List.not_mem_nil, or_false] at hmem
  rcases hmem with rfl | rfl | rfl | rfl | rfl | rfl | rfl
  all_goals decide

end Bounds

/-! ### Tokens -/

theorem spells_ident (h : IsName name) (hrest : EndsName rest) (hparen : rest.head? ≠ some '(') :
    Spells (identifier name).toList [.token (.ident name)] rest :=
  spells_token (scan?_ident h hrest hparen) rfl

theorem spells_star (h : rest.head? ≠ some '=') : Spells ['*'] [.token (.delim '*')] rest := by
  have hscan : Token.scan? (['*'] ++ rest) = some (.delim '*', rest) :=
    congrArg some (scanMatch_of_ne h '*' .substringMatch)
  exact spells_token hscan rfl

theorem spells_bar (h : rest.head? ≠ some '=') : Spells ['|'] [.token (.delim '|')] rest := by
  have hscan : Token.scan? (['|'] ++ rest) = some (.delim '|', rest) :=
    congrArg some (scanMatch_of_ne h '|' .dashMatch)
  exact spells_token hscan rfl

theorem spells_colon (rest : List Char) : Spells [':'] [.token .colon] rest :=
  spells_token (show Token.scan? _ = some (.colon, _) from rfl) rfl

/-- Where an identifier begins, there is no character that cannot begin one. -/
theorem head?_ne_of_startsIdent (h : startsIdent rest = true) (hminus : c ≠ '-')
    (hbackslash : c ≠ '\\') (hc : isNameStart c = false) : rest.head? ≠ some c := by
  intro hhead
  obtain ⟨tail, rfl⟩ := List.head?_eq_some_iff.mp hhead
  rw [startsIdent_of_ne hminus hbackslash, hc] at h
  cases h

theorem startsDigit_of_startsIdent (h : startsIdent rest = true) : startsDigit rest = false := by
  rcases rest with _ | ⟨d, rest⟩
  · rfl
  refine Bool.eq_false_iff.mpr fun hd => ?_
  have hd : d.isDigit = true := hd
  have hhead := head?_ne_of_startsIdent (c := d) h ?_ ?_ ?_
  · exact hhead rfl
  · rintro rfl
    cases hd
  · rintro rfl
    cases hd
  · exact Bool.eq_false_iff.mpr fun hstart => by
      rw [isDigit_of_isNameStart hstart] at hd
      cases hd

theorem spells_dot (h : startsDigit rest = false) : Spells ['.'] [.token (.delim '.')] rest := by
  have hnumber : startsNumber ('.' :: rest) = false := h
  have hscan : Token.scan? ('.' :: rest) = some (.delim '.', rest) := by
    refine congrArg some ?_
    unfold scanFrom
    rw [hnumber]
    rfl
  exact @spells_token ['.'] rest _ hscan rfl

/-- Some blanks, which are one token. -/
def blankValues (k : Nat) : List Value :=
  if k = 0 then [] else [.token (.whitespace (String.ofList (List.replicate k ' ')))]

theorem spells_blanks (k : Nat) (h : ∀ c ∈ rest.head?, isSpace c = false) :
    Spells (List.replicate k ' ') (blankValues k) rest := by
  rcases k with _ | k
  · exact spells_nil
  have hblanks : ∀ c ∈ List.replicate k ' ', isSpace c = true := by
    intro c hc
    rw [(List.mem_replicate.mp hc).2]
    rfl
  have hstop : rest.takeWhile isSpace = [] ∧ rest.dropWhile isSpace = rest := by
    rcases rest with _ | ⟨c, rest⟩
    · exact ⟨rfl, rfl⟩
    · simp [h c rfl]
  have hscan : Token.scan? (List.replicate (k + 1) ' ' ++ rest) =
      some (.whitespace (String.ofList (List.replicate (k + 1) ' ')), rest) := by
    refine congrArg some ?_
    change (Token.whitespace (String.ofList (' ' :: (List.span isSpace
      (List.replicate k ' ' ++ rest)).1)), (List.span isSpace (List.replicate k ' ' ++ rest)).2) = _
    rw [List.span_eq_takeWhile_dropWhile, List.takeWhile_append_of_pos hblanks,
      List.dropWhile_append_of_pos hblanks, hstop.1, hstop.2, List.append_nil]
    rfl
  exact spells_token hscan rfl

theorem not_isSpace_of_startsIdent (h : startsIdent rest = true) :
    ∀ c ∈ rest.head?, isSpace c = false := by
  intro c hc
  refine Bool.eq_false_iff.mpr fun hspace => ?_
  obtain ⟨tail, rfl⟩ := List.head?_eq_some_iff.mp hc
  simp only [isSpace, Bool.or_eq_true, beq_iff_eq] at hspace
  rcases hspace with (((rfl | rfl) | rfl) | rfl) | rfl
  all_goals cases h

/-! ### Type selectors -/

/-- The values of what is written in front of a qualified name. -/
def Qualifier.values : Qualifier → List Value
  | .any => [.token (.delim '*'), .token (.delim '|')]
  | .none => [.token (.delim '|')]
  | .named p => [.token (.ident p), .token (.delim '|')]

theorem Qualifier.ofValues_values (q : Qualifier) : Item.ofValues q.values = q.items := by
  cases q <;> rfl

theorem Qualifier.spells {q : Qualifier} (h : q.Sound) (hrest : rest.head? ≠ some '=') :
    Spells q.text.toList q.values rest := by
  cases q with
  | any =>
    have hstar : Spells ['*'] [.token (.delim '*')] (['|'] ++ rest) := spells_star (by simp)
    exact hstar.append (spells_bar hrest)
  | none => exact spells_bar hrest
  | named p =>
    rw [text, String.toList_append]
    have hname : Spells (identifier p).toList [.token (.ident p)] (['|'] ++ rest) :=
      spells_ident h (endsName_cons (by decide)) (by simp)
    exact hname.append (spells_bar hrest)

/-- The name of a type selector is one token, which is no equals sign. -/
theorem spells_localName {t : TypeSelector} (h : IsName t.localName) (hrest : Bounds rest) :
    ∃ token, Spells (if t.isUniversal then "*" else identifier t.localName).toList [.token token]
      rest ∧ (Item.token token).Names t.localName ∧
      ((if t.isUniversal then "*" else identifier t.localName).toList ++ rest).head? ≠ some '=' := by
  split
  · rename_i huniversal
    have hstar : t.localName = "*" := beq_iff_eq.mp huniversal
    rw [hstar]
    exact ⟨_, spells_star (hrest.head?_ne (by decide)), .star, by simp⟩
  · refine ⟨_, spells_ident h hrest.endsName (hrest.head?_ne (by decide)), .ident _, ?_⟩
    exact head?_ne_of_startsIdent (startsIdent_identifier h rest) (by decide) (by decide) (by decide)

/-! ### Attribute selectors -/

def qualifierValues : Option Qualifier → List Value
  | some q => q.values
  | none => []

def Operator.token : Operator → Token
  | .equals => .delim '='
  | .includes => .includeMatch
  | .dashMatch => .dashMatch
  | .startsWith => .prefixMatch
  | .endsWith => .suffixMatch
  | .contains => .substringMatch

def flagValues : Option String → List Value
  | some flag => [.token (.whitespace " "), .token (.ident flag)]
  | none => []

def Comparison.values (c : Comparison) : List Value :=
  .token c.operator.token :: .token (.quoted c.value) :: flagValues c.flag

def AttributeSelector.values (a : AttributeSelector) : List Value :=
  qualifierValues a.qualifier ++ .token (.ident a.name) :: (a.comparison.map Comparison.values).getD []

theorem Operator.spells (o : Operator) (rest : List Char) :
    Spells o.text.toList [.token o.token] ('"' :: rest) := by
  have hscan : Token.scan? (o.text.toList ++ '"' :: rest) = some (o.token, '"' :: rest) := by
    cases o <;> rfl
  cases o <;> exact spells_token hscan rfl

/-- No name goes on with an operator. -/
theorem Operator.endsName (o : Operator) (rest : List Char) :
    EndsName (o.text.toList ++ rest) ∧ (o.text.toList ++ rest).head? ≠ some '(' := by
  obtain ⟨c, hc, tail, htext⟩ : ∃ c ∈ ['=', '~', '|', '^', '$', '*'], ∃ tail,
      o.text.toList = c :: tail := by
    cases o
    exacts [⟨'=', by simp, [], rfl⟩, ⟨'~', by simp, ['='], rfl⟩, ⟨'|', by simp, ['='], rfl⟩,
      ⟨'^', by simp, ['='], rfl⟩, ⟨'$', by simp, ['='], rfl⟩, ⟨'*', by simp, ['='], rfl⟩]
  rw [htext]
  simp only [List.mem_cons, List.not_mem_nil, or_false] at hc
  rcases hc with rfl | rfl | rfl | rfl | rfl | rfl
  all_goals exact ⟨endsName_cons (by decide), by simp⟩

theorem spells_quoted {value : String} (h : '\x00' ∉ value.toList) (rest : List Char) :
    Spells (quotedString value).toList [.token (.quoted value)] rest :=
  spells_token (scan?_quoted h rest) rfl

theorem Comparison.spells {c : Comparison} (hvalue : '\x00' ∉ c.value.toList)
    (hflag : ∀ flag ∈ c.flag, IsName flag) (rest : List Char) :
    Spells c.text.toList c.values (']' :: rest) := by
  have hcompared : ∀ rest, Spells (c.operator.text ++ quotedString c.value).toList
      [.token c.operator.token, .token (.quoted c.value)] rest := by
    intro rest
    have hquoted := spells_quoted hvalue rest
    rw [toList_quotedString] at hquoted
    rw [String.toList_append, toList_quotedString]
    exact (c.operator.spells _).append hquoted
  rw [text, values, String.toList_append]
  rcases hf : c.flag with _ | flag
  · exact (hcompared _).append spells_nil
  · have hname : Spells (identifier flag).toList [.token (.ident flag)] (']' :: rest) :=
      spells_ident (hflag flag hf) (endsName_cons (by decide)) (by simp)
    have hspace : ∀ c ∈ ((identifier flag).toList ++ ']' :: rest).head?, isSpace c = false :=
      not_isSpace_of_startsIdent (startsIdent_identifier (hflag flag hf) _)
    have hflagText : (" " ++ identifier flag).toList =
        List.replicate 1 ' ' ++ (identifier flag).toList := String.toList_append
    change Spells (_ ++ (" " ++ identifier flag).toList) _ _
    rw [hflagText]
    exact (hcompared _).append ((spells_blanks 1 hspace).append hname)

/-- The name of an attribute selector, if what follows does not go on with it. -/
theorem readAttributeName_values {q : Option Qualifier} {rest : List Item}
    (h : ∀ tail, rest ≠ .token (.delim '|') :: tail) :
    readAttributeName (Item.ofValues (qualifierValues q) ++ .token (.ident name) :: rest) =
      .ok ((q, name), rest) := by
  rcases q with _ | _ | _ | p
  · change readAttributeName (.token (.ident name) :: rest) = _
    have hnext : next Item.first (.token (.ident name) :: rest) = .ok (.token (.ident name), rest) :=
      rfl
    rw [readAttributeName, hnext]
    simp only [bind, Except.bind]
    rfl
  · rfl
  · rfl
  · rfl

/-- An attribute selector is read back from the values of its block. -/
theorem readAttribute_values (a : AttributeSelector) :
    readAttribute (Item.ofValues a.values) = .ok a := by
  obtain ⟨qualifier, name, comparison⟩ := a
  rw [AttributeSelector.values, Item.ofValues_append, readAttribute]
  rcases comparison with _ | ⟨operator, value, flag⟩
  · have hname : readAttributeName (Item.ofValues (qualifierValues qualifier) ++
        [.token (.ident name)]) = .ok ((qualifier, name), []) := readAttributeName_values nofun
    exact congrArg (· >>= _) hname
  · have hname : readAttributeName (Item.ofValues (qualifierValues qualifier) ++
        .token (.ident name) :: Item.ofValues (Comparison.values ⟨operator, value, flag⟩)) =
          .ok ((qualifier, name), Item.ofValues (Comparison.values ⟨operator, value, flag⟩)) := by
      refine readAttributeName_values fun tail h => ?_
      cases operator <;> cases (List.cons.inj h).1
    refine (congrArg (· >>= _) hname).trans ?_
    cases operator <;> cases flag <;> rfl

/-- The text between the brackets of an attribute selector. -/
def AttributeSelector.source (a : AttributeSelector) : List Char :=
  (qualifierText a.qualifier).toList ++ ((identifier a.name).toList ++
    ((a.comparison.map fun c => c.text.toList).getD []))

theorem AttributeSelector.toList_text (a : AttributeSelector) :
    a.text.toList = ['['] ++ a.source ++ [']'] := by
  obtain ⟨qualifier, name, comparison⟩ := a
  rcases comparison with _ | c
  · simp [text, source]
  · simp [text, source]

theorem AttributeSelector.spells_source {a : AttributeSelector} (h : a.Sound) (rest : List Char) :
    Spells a.source a.values (']' :: rest) := by
  obtain ⟨qualifier, name, comparison⟩ := a
  obtain ⟨hqualifier, hname, hvalue, hflag⟩ := h
  have hcomparison : Spells ((comparison.map fun c => c.text.toList).getD [])
      ((comparison.map Comparison.values).getD []) (']' :: rest) := by
    rcases comparison with _ | c
    · exact spells_nil
    · exact Comparison.spells (hvalue c rfl) (hflag c rfl) rest
  have hend : EndsName ((comparison.map fun c => c.text.toList).getD [] ++ ']' :: rest) ∧
      ((comparison.map fun c => c.text.toList).getD [] ++ ']' :: rest).head? ≠ some '(' := by
    rcases comparison with _ | c
    · exact ⟨endsName_cons (by decide), by simp⟩
    · rw [Option.map_some, Option.getD_some, Comparison.text, String.toList_append,
        String.toList_append, List.append_assoc, List.append_assoc]
      exact c.operator.endsName _
  have hident := (spells_ident hname hend.1 hend.2).append hcomparison
  refine Spells.append ?_ hident
  rcases qualifier with _ | q
  · exact spells_nil
  · refine Qualifier.spells (hqualifier q rfl) ?_
    rw [List.append_assoc]
    exact head?_ne_of_startsIdent (startsIdent_identifier hname _) (by decide) (by decide) (by decide)

/-- An attribute selector is one block. -/
theorem AttributeSelector.spells {a : AttributeSelector} (h : a.Sound) (rest : List Char) :
    Spells a.text.toList [.block .openSquare a.values a.source] rest := by
  rw [toList_text]
  have hsource : Spells a.source a.values ([']'] ++ rest) := spells_source h rest
  exact hsource.block rfl rfl rfl

theorem AttributeSelector.ofValue_block (a : AttributeSelector) (source : List Char) :
    Item.ofValue (.block .openSquare a.values source) = .bracketed (.ok a) := by
  rw [← readAttribute_values a]
  rfl

end DomQuery.Selector
