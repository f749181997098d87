import DomQuery.Proofs.Selector.Spelled
import DomQuery.Proofs.Selector.Words

/-!
# Words that are read back

A text that is one pseudo-class with words for an argument is read back from its canonical
text if the words with a star in them may be written as they are: they stand in a language
range, and have nothing in them that needs an escape. If one of them does not, the words
are lost, or the text is not read at all.

* `readsWord_wordChars`: a word as it is written.
* `spells_wordsText`: a list of words.
* `SelectorList.words_readBack_iff`: which words are read back.
-/

namespace DomQuery.Selector

open DomQuery.Css DomQuery.Text

variable {text text' word word' rest : List Char} {items items' : List Item} {name : String}

/-! ### One word -/

/-- No blank comes first, and no equals sign. -/
def Leads (rest : List Char) : Prop :=
  ∀ c ∈ rest.head?, isSpace c = false ∧ c ≠ '='

theorem leads_cons {c : Char} (h : isSpace c = false ∧ c ≠ '=') : Leads (c :: rest) := by
  rintro _ ⟨⟩
  exact h

theorem leads_of_stops (h : Stops rest) : Leads rest := by
  obtain ⟨rest, rfl | rfl⟩ := h
  · exact leads_cons ⟨rfl, by decide⟩
  · exact leads_cons ⟨rfl, by decide⟩

theorem leads_identifierChars (hnul : '\x00' ∉ word) (hrest : Leads rest) :
    Leads (identifierChars word ++ rest) := by
  rcases word with _ | ⟨c, word⟩
  · exact hrest
  · have hstart := startsIdent_identifierChars (List.cons_ne_nil c word) hnul rest
    intro d hd
    refine ⟨not_isSpace_of_startsIdent hstart d hd, ?_⟩
    rintro rfl
    exact head?_ne_of_startsIdent hstart (by decide) (by decide) (by decide) hd

theorem leads_wordChars (hnul : '\x00' ∉ word) (h : '*' ∈ word → EscapeFree word)
    (hrest : Leads rest) : Leads (wordChars word ++ rest) := by
  unfold wordChars
  split
  · rename_i hmem
    obtain ⟨part, after, rfl, hpart⟩ := List.eq_append_cons_of_mem hmem
    obtain ⟨hidentifier, -⟩ := (escapeFree_append_star hpart after).mp (h hmem)
    rw [List.append_assoc, ← hidentifier]
    exact leads_identifierChars (fun hn => hnul (List.mem_append_left _ hn))
      (leads_cons ⟨rfl, by decide⟩)
  · exact leads_identifierChars hnul hrest

theorem readRange_append {a b : String} (h : readRange items = .ok a)
    (h' : readRange items' = .ok b) : readRange (items ++ items') = .ok (a ++ b) := by
  induction items generalizing a with
  | nil =>
    cases h
    rw [List.nil_append, h', String.empty_append]
  | cons i items ih =>
    rcases readRange_cons i with ⟨said, -, hread⟩ | ⟨e, herror⟩
    · rw [hread] at h
      obtain ⟨a', ha', rfl⟩ := map_eq_ok.mp h
      rw [List.cons_append, hread]
      exact map_eq_ok.mpr ⟨a' ++ b, ih ha', String.append_assoc.symm⟩
    · cases (herror items).symm.trans h

/-- In front of `rest`, the text is read as the word. -/
def ReadsWord (text word rest : List Char) : Prop :=
  ∃ vs, Spells text vs rest ∧ (∀ v ∈ vs, v.first ≠ .comma) ∧
    readRange (Item.ofValues vs) = .ok (String.ofList word)

theorem readsWord_nil (rest : List Char) : ReadsWord [] [] rest :=
  ⟨[], spells_nil, by simp, rfl⟩

theorem ReadsWord.append (h : ReadsWord text word (text' ++ rest))
    (h' : ReadsWord text' word' rest) : ReadsWord (text ++ text') (word ++ word') rest := by
  obtain ⟨vs, hspells, hcomma, hread⟩ := h
  obtain ⟨ws, hspells', hcomma', hread'⟩ := h'
  refine ⟨vs ++ ws, hspells.append hspells', List.forall_mem_append.mpr ⟨hcomma, hcomma'⟩, ?_⟩
  rw [Item.ofValues_append, readRange_append hread hread', String.ofList_append]

theorem readsWord_star (h : Leads rest) : ReadsWord ['*'] ['*'] rest := by
  refine ⟨_, spells_star fun hc => (h _ hc).2 rfl, List.forall_mem_singleton.mpr nofun, ?_⟩
  rfl

theorem readsWord_blanks (k : Nat) (h : Leads rest) : ReadsWord (List.replicate k ' ') [] rest := by
  refine ⟨_, spells_blanks k fun c hc => (h c hc).1, ?_⟩
  unfold blankValues
  split
  · exact ⟨by simp, rfl⟩
  · exact ⟨List.forall_mem_singleton.mpr nofun, rfl⟩

theorem readsWord_identifierChars (hnul : '\x00' ∉ word) (hrest : EndsName rest)
    (hparen : rest.head? ≠ some '(') : ReadsWord (identifierChars word) word rest := by
  rcases word with _ | ⟨c, word⟩
  · exact readsWord_nil rest
  · have hspells := spells_ident (isName_ofList (List.cons_ne_nil c word) hnul) hrest hparen
    rw [toList_identifier, String.toList_ofList] at hspells
    refine ⟨_, hspells, List.forall_mem_singleton.mpr nofun, ?_⟩
    exact congrArg Except.ok String.append_empty

/-- A word without escapes, by induction on its parts. -/
theorem readsWord_of_escapeFree (hnul : '\x00' ∉ word) (h : EscapeFree word) (hrest : Stops rest) :
    ReadsWord word word rest := by
  induction hn : word.length using Nat.strongRecOn generalizing word with
  | ind n ih =>
    by_cases hmem : '*' ∈ word
    · obtain ⟨part, after, rfl, hpart⟩ := List.eq_append_cons_of_mem hmem
      obtain ⟨hidentifier, hafter⟩ := (escapeFree_append_star hpart after).mp h
      obtain ⟨hnulPart, hnulAfter⟩ : '\x00' ∉ part ∧ '\x00' ∉ after := by simpa using hnul
      have hlength : after.length < n := by
        rw [← hn]
        simp only [List.length_append, List.length_cons]
        omega
      have hleads := leads_wordChars hnulAfter (fun _ => hafter) (leads_of_stops hrest)
      rw [wordChars_of_escapeFree hafter] at hleads
      have hstar : EndsName ('*' :: (after ++ rest)) := endsName_cons (by decide)
      have hpart := readsWord_identifierChars hnulPart hstar (by simp)
      rw [hidentifier] at hpart
      exact hpart.append ((readsWord_star hleads).append (ih _ hlength hnulAfter hafter rfl))
    · have hidentifier := (escapeFree_of_notMem hmem).mp h
      have hreads := readsWord_identifierChars hnul hrest.endsName (hrest.head?_ne (by decide))
      rwa [hidentifier] at hreads

theorem readsWord_wordChars (hnul : '\x00' ∉ word) (h : '*' ∈ word → EscapeFree word)
    (hrest : Stops rest) : ReadsWord (wordChars word) word rest := by
  unfold wordChars
  split
  · exact readsWord_of_escapeFree hnul (h ‹_›) hrest
  · exact readsWord_identifierChars hnul hrest.endsName (hrest.head?_ne (by decide))

/-! ### Lists of words -/

section Lists

variable {words : List String}

theorem toList_wordText (word : String) : (wordText word).toList = wordChars word.toList := by
  unfold wordText wordChars
  by_cases hmem : '*' ∈ word.toList
  · rw [if_pos hmem, if_pos (by simpa using hmem)]
  · rw [if_neg hmem, if_neg (by simpa using hmem), toList_identifier]

/-- A list of words as it is written. -/
def wordsText (words : List String) : String :=
  ", ".intercalate (words.map wordText)

theorem wordsText_cons_cons (word next : String) (words : List String) :
    (wordsText (word :: next :: words)).toList =
      wordChars word.toList ++ ([','] ++ ([' '] ++ (wordsText (next :: words)).toList)) := by
  rw [wordsText, List.map_cons, List.map_cons, String.intercalate_cons_cons, ← List.map_cons,
    ← wordsText]
  simp [toList_wordText]

theorem toList_wordsText (word : String) (words : List String) :
    (wordsText (word :: words)).toList ++ [')'] =
      wordChars word.toList ++ listTail (words.map String.toList) := by
  induction words generalizing word with
  | nil =>
    rw [wordsText, List.map_singleton, String.intercalate_singleton, toList_wordText]
    rfl
  | cons next words ih =>
    rw [wordsText_cons_cons, List.append_assoc, List.append_assoc, List.append_assoc, ih]
    rfl

/-- The items of a list of words, with some blanks in front. -/
theorem spells_wordsText (hne : words ≠ []) (hnul : ∀ word ∈ words, '\x00' ∉ word.toList)
    (h : ∀ word ∈ words, '*' ∈ word.toList → EscapeFree word.toList) (k : Nat) (rest : List Char) :
    ∃ vs, Spells (List.replicate k ' ' ++ (wordsText words).toList) vs (')' :: rest) ∧
      (splitCommas (Item.ofValues vs)).mapM readRange = .ok words := by
  induction words generalizing k with
  | nil => exact absurd rfl hne
  | cons word words ih =>
    obtain ⟨hword, hwords⟩ := List.forall_mem_cons.mp hnul
    obtain ⟨hfree, hfrees⟩ := List.forall_mem_cons.mp h
    have hreads : ∀ {rest}, Stops rest →
        ReadsWord (List.replicate k ' ' ++ wordChars word.toList) word.toList rest := fun hrest =>
      (readsWord_blanks k (leads_wordChars hword hfree (leads_of_stops hrest))).append
        (readsWord_wordChars hword hfree hrest)
    rcases words with _ | ⟨next, words⟩
    · obtain ⟨vs, hspells, hcomma, hread⟩ := hreads ⟨rest, .inr rfl⟩
      have htext : (wordsText [word]).toList = wordChars word.toList := by
        rw [wordsText, List.map_singleton, String.intercalate_singleton, toList_wordText]
      rw [htext]
      refine ⟨vs, hspells, ?_⟩
      rw [splitCommas_of_forall (isComma_ofValues hcomma), List.mapM_cons, hread, String.ofList_toList]
      rfl
    · obtain ⟨ws, hspellsRest, hreadRest⟩ := ih (List.cons_ne_nil _ _) hwords hfrees 1
      obtain ⟨vs, hspells, hcomma, hread⟩ := hreads ⟨_, .inl rfl⟩
      have hseparator : Spells [','] [.token .comma] (List.replicate 1 ' ' ++
          (wordsText (next :: words)).toList ++ ')' :: rest) :=
        spells_token (show Token.scan? _ = some (.comma, _) from rfl) rfl
      refine ⟨vs ++ ([.token .comma] ++ ws), ?_, ?_⟩
      · rw [wordsText_cons_cons, ← List.append_assoc]
        exact hspells.append (hseparator.append hspellsRest)
      · rw [Item.ofValues_append, Item.ofValues_append]
        change (splitCommas (_ ++ .token .comma :: Item.ofValues ws)).mapM readRange = _
        rw [splitCommas_append (isComma_ofValues hcomma), List.mapM_cons, hread, hreadRest,
          String.ofList_toList]
        rfl

end Lists

/-! ### The pseudo-class -/

/-- The names with words in their brackets. -/
theorem called_of_kind (h : name = "lang" ∨ name = "dir" ∨ name = "state") :
    IsName name ∧ identifier name = name ∧ lower name = name ∧ eqFold name "url" = false := by
  rcases h with rfl | rfl | rfl
  all_goals exact ⟨⟨by decide, by decide⟩, by decide, by decide +kernel, by decide +kernel⟩

theorem readArgument_lang (items : List Item) (source : String) :
    readArgument "lang" items source = .words <$> lift ((splitCommas items).mapM readRange) := by
  simp [readArgument]

theorem readArgument_keyword (h : name = "dir" ∨ name = "state") (items : List Item)
    (source : String) :
    readArgument name items source = (fun word => .words [word]) <$> lift (readKeyword items) := by
  rcases h with rfl | rfl
  all_goals simp [readArgument]

theorem run_lift {α β : Type} {f : α → β} {result : Except ReadError α} {a : α}
    (h : result = .ok a) (n : Nat) : (f <$> lift result : Read β).run.run n = (.ok (f a), n) := by
  rw [h]
  rfl

theorem eq_ok_of_run_lift {α β : Type} {f : α → β} {result : Except ReadError α} {b : β} {n m : Nat}
    (h : (f <$> lift result : Read β).run.run n = (.ok b, m)) : ∃ a, result = .ok a ∧ f a = b := by
  rcases result with e | a
  · cases h
  · exact ⟨a, rfl, Except.ok.inj (congrArg Prod.fst h)⟩

theorem SelectorList.text_words (id : ListId) (name : String) (words : List String) :
    (SelectorList.mk id [.mk [.pseudoClass name (some (.words words))]]).text =
      ":" ++ identifier name ++ "(" ++ wordsText words ++ ")" := by
  simp [SelectorList.text, Complex.texts, Component.texts, Component.text, Argument.parenthesized,
    Argument.text, wordsText, String.append_assoc]

/-- A text that is one pseudo-class whose argument is read. -/
theorem parse_call (hname : IsName name) (hidentifier : identifier name = name)
    (hlower : lower name = name) (hurl : eqFold name "url" = false) {s : String} {vs : List Value}
    {a : Argument} {m : Nat} (hs : Spells s.toList vs [')'])
    (ha : ∀ source, (readArgument name (Item.ofValues vs) source).run.run 1 = (.ok a, m)) :
    SelectorList.parse (":" ++ name ++ "(" ++ s ++ ")") =
      .ok (.mk ⟨0⟩ [.mk [.pseudoClass name (some a)]]) := by
  rw [SelectorList.parse, values_call hname hidentifier hurl hs]
  have hargument : ∀ source,
      (readArgument (lower name) (Item.ofValues vs) source).run.run 1 = (.ok a, m) := by
    rwa [hlower]
  refine (congrArg Prod.fst (run_readList_pseudo (hargument _))).trans ?_
  rw [hlower]

theorem Worded.name_cases {words : List String} (h : Worded name words) :
    name = "lang" ∨ name = "dir" ∨ name = "state" :=
  h.kind.imp And.left And.left

/-- The words may be written as they are where a star is in them. -/
def Faithful (name : String) (words : List String) : Prop :=
  ∀ word ∈ words, '*' ∈ word.toList → name = "lang" ∧ EscapeFree word.toList

instance (name : String) (words : List String) : Decidable (Faithful name words) :=
  inferInstanceAs (Decidable (∀ word ∈ words, '*' ∈ word.toList → name = "lang" ∧
    EscapeFree word.toList))

theorem Worded.readBack {words : List String} (h : Worded name words) (hv : Faithful name words)
    (id : ListId) :
    SelectorList.ofText (SelectorList.mk id [.mk [.pseudoClass name (some (.words words))]]).text =
      .ok (.mk ⟨0⟩ [.mk [.pseudoClass name (some (.words words))]]) := by
  obtain ⟨hname, hidentifier, hlower, hurl⟩ := called_of_kind h.name_cases
  rw [SelectorList.text_words, hidentifier]
  refine mapError_eq_ok.mpr ?_
  rcases h.kind with ⟨rfl, hne⟩ | ⟨hkeyword, word, rfl, hword⟩
  · have hfree : ∀ w ∈ words, '*' ∈ w.toList → EscapeFree w.toList := fun w hw hmem =>
      (hv w hw hmem).2
    obtain ⟨vs, hspells, hread⟩ := spells_wordsText hne h.nul hfree 0 []
    exact parse_call hname hidentifier hlower hurl hspells fun source => by
      rw [readArgument_lang]
      exact run_lift hread 1
  · have hstar : '*' ∉ word.toList := fun hmem => by
      obtain ⟨rfl, -⟩ := hv word (List.mem_singleton.mpr rfl) hmem
      exact absurd hkeyword (by decide)
    have hspells : Spells (wordsText [word]).toList [.token (.ident word)] [')'] := by
      have htext : (wordsText [word]).toList = (identifier word).toList := by
        rw [wordsText, List.map_singleton, String.intercalate_singleton, toList_wordText, wordChars,
          if_neg hstar, toList_identifier]
      rw [htext]
      exact spells_ident hword.1 (endsName_cons (by decide)) (by simp)
    have hread : readKeyword (Item.ofValues [.token (.ident word)]) = .ok word :=
      congrArg Except.ok hword.2
    exact parse_call hname hidentifier hlower hurl hspells fun source => by
      rw [readArgument_keyword hkeyword]
      exact run_lift hread 1

/-- If the words are what their text is read as, those with a star may be written as they are. -/
theorem Worded.faithful {words : List String} (h : Worded name words) {id : ListId}
    {name' : String} {list : SelectorList}
    (hread : SelectorList.ofText
      (SelectorList.mk id [.mk [.pseudoClass name (some (.words words))]]).text = .ok list)
    (hl : list.selectors = [.mk [.pseudoClass name' (some (.words words))]]) :
    Faithful name words := by
  obtain ⟨hname, hidentifier, hlower, hurl⟩ := called_of_kind h.name_cases
  obtain ⟨word, words, rfl⟩ : ∃ word words', words = word :: words' := by
    rcases h.kind with ⟨-, hne⟩ | ⟨-, word, rfl, -⟩
    · exact List.exists_cons_of_ne_nil hne
    · exact ⟨word, [], rfl⟩
  have htext : (":" ++ identifier name ++ "(" ++ wordsText (word :: words) ++ ")").toList =
      ':' :: (name.toList ++ '(' ::
        (wordChars word.toList ++ listTail (words.map String.toList))) := by
    rw [← toList_wordsText, hidentifier]
    simp
  rw [SelectorList.text_words] at hread
  obtain ⟨vs, source, after, hvalues, hholds⟩ := exists_values_of_call hname hidentifier hurl htext
  have hparse := mapError_eq_ok.mp hread
  rw [SelectorList.parse, hvalues, Item.ofValues, Item.ofValues, Item.ofValue, Item.ofValue] at hparse
  obtain ⟨m, hargument⟩ := exists_run_of_call (Prod.ext hparse rfl) hl
  rw [hlower] at hargument
  rcases h.kind with ⟨rfl, -⟩ | ⟨hkeyword, word', hsingle, -⟩
  · rw [readArgument_lang] at hargument
    obtain ⟨words', hread, hwords⟩ := eq_ok_of_run_lift hargument
    obtain rfl := Argument.words.inj hwords
    have hnul : ∀ w ∈ (word :: words).map String.toList, '\x00' ∉ w := List.forall_mem_map.mpr h.nul
    have hfree := escapeFree_of_says hnul (says_readRange hholds hread)
    exact fun w hw hmem => ⟨rfl, (hfree _ (List.mem_map_of_mem hw) hmem).2⟩
  · obtain ⟨rfl, rfl⟩ := List.cons.inj hsingle
    rw [readArgument_keyword hkeyword] at hargument
    obtain ⟨word', hkey, hword⟩ := eq_ok_of_run_lift hargument
    obtain ⟨rfl, -⟩ := List.cons.inj (Argument.words.inj hword)
    obtain ⟨said, hsaid, hspoken⟩ := says_readKeyword hholds hkey
    have hnul := List.forall_mem_singleton.mp h.nul
    rw [List.map_nil] at hspoken
    rw [hsaid] at hspoken hnul
    have hstar := star_notMem_of_says hnul hspoken
    rw [← hsaid] at hstar
    exact List.forall_mem_singleton.mpr fun hmem => absurd hmem hstar

/-- Which words are read back: exactly those that may be written as they are where a star is in
them. Then the whole selector is. -/
theorem SelectorList.words_readBack_iff {text name : String} {list : SelectorList}
    {words : List String} (h : ofText text = .ok list)
    (hl : list.selectors = [.mk [.pseudoClass name (some (.words words))]]) :
    ((∃ list' name', ofText list.text = .ok list' ∧
        list'.selectors = [.mk [.pseudoClass name' (some (.words words))]]) ↔ Faithful name words) ∧
      (Faithful name words → ofText list.text = .ok list) := by
  have hparse := mapError_eq_ok.mp h
  have hworded := worded_of_parse hparse hl
  obtain ⟨group, groups, hsplit⟩ :=
    List.exists_cons_of_ne_nil (splitCommas_ne_nil (Item.ofValues (values text)))
  obtain ⟨hid, -⟩ := exists_run_of_readList (Prod.ext hparse rfl) hsplit
  obtain ⟨id, selectors⟩ := list
  obtain rfl : id = ⟨0⟩ := hid
  obtain rfl : selectors = _ := hl
  have hback : Faithful name words → ofText _ = .ok _ := fun hv => hworded.readBack hv ⟨0⟩
  refine ⟨⟨?_, fun hv => ⟨_, name, hback hv, rfl⟩⟩, hback⟩
  rintro ⟨list', name', hread, hl'⟩
  exact hworded.faithful hread hl'

/-- A language range with a blank, one with a star and an empty one. -/
def languageRanges : SelectorList :=
  .mk ⟨0⟩ [.mk [.pseudoClass "lang" (some (.words ["1 b", "*-CH", ""]))]]

theorem ofText_languageRanges :
    SelectorList.ofText ":lang(\"1 b\", *-CH, \"\")" = .ok languageRanges := by cbv

theorem SelectorList.words_readBack_languageRanges :
    SelectorList.ofText ":lang(\"1 b\", *-CH, \"\")" = .ok languageRanges ∧
      Faithful "lang" ["1 b", "*-CH", ""] ∧
      SelectorList.ofText languageRanges.text = .ok languageRanges :=
  have hfaithful : Faithful "lang" ["1 b", "*-CH", ""] := by decide
  ⟨ofText_languageRanges, hfaithful, (words_readBack_iff ofText_languageRanges rfl).2 hfaithful⟩

/-- An escaped star in the name of a state is written without its backslash, and is not read
again. -/
theorem SelectorList.words_not_readBack : ¬ ∀ (text name : String) (list : SelectorList)
    (words : List String), SelectorList.ofText text = .ok list →
      list.selectors = [.mk [.pseudoClass name (some (.words words))]] →
      ∃ list' name', SelectorList.ofText list.text = .ok list' ∧
        list'.selectors = [.mk [.pseudoClass name' (some (.words words))]] := by
  intro h
  have htext : SelectorList.ofText ":state(a\\*b)" =
      .ok (.mk ⟨0⟩ [.mk [.pseudoClass "state" (some (.words ["a*b"]))]]) := by cbv
  obtain ⟨list', name', hread, -⟩ := h _ "state" _ ["a*b"] htext rfl
  have hfails : (SelectorList.ofText (SelectorList.mk ⟨0⟩
      [.mk [.pseudoClass "state" (some (.words ["a*b"]))]]).text).toOption = none := by cbv
  rw [hread] at hfails
  cases hfails

end DomQuery.Selector
