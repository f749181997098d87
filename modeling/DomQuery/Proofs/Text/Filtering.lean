import DomQuery.Proofs.Text.RangePattern

/-!
# Extended filtering

RFC 4647, section 3.3.2, compares a language range with a language tag subtag by subtag.
The subtags of the range after the first are looked for in the tag, each after the one
before; what stands between is skipped, but a subtag of one character is not: it ends
the comparison (`searchLater`). Selection by ranges is this comparison without that bar.

* `inOrder_iff_searchLater`: what the search for the later subtags comes to without the bar.
* `eq_append_of_barred`: where the bar is.
* `selects_iff_filtering`: a range selects a tag if filtering accepts it, or if only a
  subtag of one character keeps it from that.
-/

namespace DomQuery.Text.LanguageRange

/-! ### The comparison -/

/-- The subtags of a range or a tag. -/
def subtags (text : String) : List (List Char) :=
  cut (· == '-') text.toList

theorem exists_subtags (text : String) : ∃ head rest, subtags text = head :: rest := by
  obtain ⟨head, rest, hcut, -⟩ := exists_cut text.toList
  exact ⟨head, rest, hcut⟩

/-- Subtags of letters and digits, or stars. -/
def IsRange (range : String) : Prop :=
  ∀ s ∈ subtags range, s = ['*'] ∨ IsPlain s

instance (range : String) : Decidable (IsRange range) :=
  inferInstanceAs (Decidable (∀ s ∈ _, _))

/-- Subtags of letters and digits, the first of letters only. -/
def IsTag (tag : String) : Prop :=
  (∀ s ∈ subtags tag, IsPlain s) ∧ ∀ s ∈ (subtags tag).head?, s.all Char.isAlpha = true

instance (tag : String) : Decidable (IsTag tag) :=
  inferInstanceAs (Decidable (_ ∧ _))

/-- Equal, case aside. -/
def EqualSubtags (s t : List Char) : Prop :=
  s.map Char.toLower = t.map Char.toLower

instance (s t : List Char) : Decidable (EqualSubtags s t) :=
  inferInstanceAs (Decidable (_ = _))

/-- How a comparison ends. -/
inductive Verdict where
  | accepted
  /-- The first subtags differ. -/
  | mismatched
  /-- No more subtags of the tag for what is left of the range. -/
  | exhausted
  /-- A subtag of one character is in the way of what is left of the range. After it
  comes the rest of the tag. -/
  | barred (later rest : List (List Char))
deriving DecidableEq, Repr

/-- The search for the later subtags of the range among those of the tag. -/
def searchLater : List (List Char) → List (List Char) → Verdict
  | [], _ => .accepted
  | s :: later, [] => if s = ['*'] then searchLater later [] else .exhausted
  | s :: later, t :: rest =>
    if s = ['*'] then searchLater later (t :: rest)
    else if EqualSubtags s t then searchLater later rest
    else if t.length = 1 then .barred (s :: later) rest
    else searchLater (s :: later) rest
termination_by later rest => later.length + rest.length

/-- The comparison of a range with a tag. -/
def filtering (range tag : String) : Verdict :=
  match subtags range, subtags tag with
  | s :: later, t :: rest =>
    if s = ['*'] ∨ EqualSubtags s t then searchLater later rest else .mismatched
  | _, _ => .mismatched

/-- The subtags of a range that are no stars. -/
def withoutStars (later : List (List Char)) : List (List Char) :=
  later.filter (· ≠ ['*'])

/-- The subtags of a range, stars aside, are there in their order. -/
def Occur (later rest : List (List Char)) : Prop :=
  ((withoutStars later).map (List.map Char.toLower)).Sublist (rest.map (List.map Char.toLower))

/-- Accepted, or barred with the rest of the range behind the bar. -/
def Verdict.AcceptsUnbarred : Verdict → Prop
  | .accepted => True
  | .barred later rest => Occur later rest
  | .mismatched | .exhausted => False

/-! ### Case -/

theorem caseFold_of_isAlnum {c : Char} (h : isAlnum c = true) : caseFold c = c.toLower := by
  have hlt := lt_of_isAlnum h
  have hs : c ≠ '\u017F' := by
    rintro rfl
    exact absurd hlt (by decide)
  have hk : c ≠ '\u212A' := by
    rintro rfl
    exact absurd hlt (by decide)
  rw [caseFold, if_neg (by simpa using hs), if_neg (by simpa using hk)]

theorem map_caseFold {s : List Char} (h : IsPlain s) : s.map caseFold = s.map Char.toLower :=
  List.map_congr_left fun c hc => caseFold_of_isAlnum (h.2 c hc)

theorem sameSubtag_iff {s t : List Char} (hs : IsPlain s) (ht : IsPlain t) :
    sameSubtag s t = true ↔ EqualSubtags s t := by
  rw [sameSubtag, beq_iff_eq, map_caseFold hs, map_caseFold ht, EqualSubtags]

theorem isWord_of_isPlain {s : List Char} (h : IsPlain s) : isWord s = true := by
  rw [isWord, Bool.and_eq_true, List.all_eq_true]
  refine ⟨by simpa using h.1, fun c hc => ?_⟩
  exact isAlnum_caseFold c (mem_foldable_of_lt (lt_of_isAlnum (h.2 c hc))) (h.2 c hc)

/-! ### The search -/

section Search

variable {later rest : List (List Char)} (hlater : ∀ s ∈ later, s = ['*'] ∨ IsPlain s)
  (hrest : ∀ t ∈ rest, IsPlain t)

theorem withoutStars_cons {s : List Char} (h : s ≠ ['*']) :
    withoutStars (s :: later) = s :: withoutStars later :=
  List.filter_cons_of_pos (decide_eq_true h)

include hlater

theorem isPlain_of_mem_withoutStars {s : List Char} (hs : s ∈ withoutStars later) : IsPlain s := by
  obtain ⟨hmem, hstar⟩ := List.mem_filter.mp hs
  exact (hlater s hmem).resolve_left (of_decide_eq_true hstar)

include hrest

theorem inOrder_iff_occur : inOrder (withoutStars later) rest = true ↔ Occur later rest := by
  have hfold : (withoutStars later).map (List.map caseFold) =
      (withoutStars later).map (List.map Char.toLower) :=
    List.map_congr_left fun s hs => map_caseFold (isPlain_of_mem_withoutStars hlater hs)
  rw [inOrder_iff_sublist, Occur, hfold, List.map_congr_left fun t ht => map_caseFold (hrest t ht)]

omit hlater hrest in
/-- Another subtag of the tag is passed over. -/
theorem inOrder_withoutStars_cons {s t : List Char}
    (hlater : ∀ s' ∈ s :: later, s' = ['*'] ∨ IsPlain s') (hrest : ∀ t' ∈ t :: rest, IsPlain t')
    (hstar : s ≠ ['*']) (hsame : ¬EqualSubtags s t) :
    inOrder (withoutStars (s :: later)) (t :: rest) = inOrder (withoutStars (s :: later)) rest := by
  have hs : IsPlain s := (hlater s List.mem_cons_self).resolve_left hstar
  have ht : IsPlain t := hrest t List.mem_cons_self
  rw [withoutStars_cons hstar, inOrder, if_neg (mt (sameSubtag_iff hs ht).mp hsame)]

/-- The subtags are there if the search finds them, or if it is barred and those that are
left are there behind the bar. -/
theorem inOrder_iff_searchLater :
    inOrder (withoutStars later) rest = true ↔ (searchLater later rest).AcceptsUnbarred := by
  induction later, rest using searchLater.induct with
  | case1 rest =>
    rw [searchLater]
    simp [withoutStars, inOrder, Verdict.AcceptsUnbarred]
  | case2 later ih =>
    rw [searchLater, if_pos rfl]
    exact ih (List.forall_mem_cons.mp hlater).2 hrest
  | case3 s later hstar =>
    rw [searchLater, if_neg hstar, withoutStars_cons hstar, inOrder]
    exact iff_of_false Bool.false_ne_true id
  | case4 later t rest ih =>
    rw [searchLater, if_pos rfl]
    exact ih (List.forall_mem_cons.mp hlater).2 hrest
  | case5 s later t rest hstar hsame ih =>
    obtain ⟨hs, hlater⟩ := List.forall_mem_cons.mp hlater
    obtain ⟨ht, hrest⟩ := List.forall_mem_cons.mp hrest
    have hsubtag := (sameSubtag_iff (hs.resolve_left hstar) ht).mpr hsame
    rw [searchLater, if_neg hstar, if_pos hsame, withoutStars_cons hstar, inOrder, if_pos hsubtag]
    exact ih hlater hrest
  | case6 s later t rest hstar hsame hlength =>
    -- here the search ends, and what is behind the bar is asked for as such
    rw [searchLater, if_neg hstar, if_neg hsame, if_pos hlength,
      inOrder_withoutStars_cons hlater hrest hstar hsame]
    exact inOrder_iff_occur hlater (List.forall_mem_cons.mp hrest).2
  | case7 s later t rest hstar hsame hlength ih =>
    rw [searchLater, if_neg hstar, if_neg hsame, if_neg hlength,
      inOrder_withoutStars_cons hlater hrest hstar hsame]
    exact ih hlater (List.forall_mem_cons.mp hrest).2

end Search

/-- What bars a search is a subtag of one character. -/
theorem eq_append_of_barred {later rest later' rest' : List (List Char)}
    (h : searchLater later rest = .barred later' rest') :
    ∃ before bar, rest = before ++ bar :: rest' ∧ bar.length = 1 := by
  induction later, rest using searchLater.induct with
  | case1 rest =>
    rw [searchLater] at h
    cases h
  | case2 later ih =>
    rw [searchLater, if_pos rfl] at h
    exact ih h
  | case3 s later hstar =>
    rw [searchLater, if_neg hstar] at h
    cases h
  | case4 later t rest ih =>
    rw [searchLater, if_pos rfl] at h
    exact ih h
  | case5 s later t rest hstar hsame ih =>
    rw [searchLater, if_neg hstar, if_pos hsame] at h
    obtain ⟨before, bar, rfl, hbar⟩ := ih h
    exact ⟨t :: before, bar, rfl, hbar⟩
  | case6 s later t rest hstar hsame hlength =>
    rw [searchLater, if_neg hstar, if_neg hsame, if_pos hlength] at h
    obtain ⟨-, rfl⟩ := Verdict.barred.inj h
    exact ⟨[], t, rfl, hlength⟩
  | case7 s later t rest hstar hsame hlength ih =>
    rw [searchLater, if_neg hstar, if_neg hsame, if_neg hlength] at h
    obtain ⟨before, bar, rfl, hbar⟩ := ih h
    exact ⟨t :: before, bar, rfl, hbar⟩

/-! ### Selection -/

theorem isSubtag_ofList {s : List Char} (h : s = ['*'] ∨ IsPlain s) :
    isSubtag (String.ofList s) = true := by
  rw [isSubtag, Bool.or_eq_true]
  rcases h with rfl | ⟨hne, hall⟩
  · exact .inl rfl
  · refine .inr ?_
    rw [Bool.and_eq_true, String.toList_ofList, List.all_eq_true]
    exact ⟨by simpa using hne, hall⟩

theorem ofList_eq_star_iff {s : List Char} : String.ofList s = "*" ↔ s = ['*'] := by
  rw [← String.toList_inj, String.toList_ofList]
  rfl

/-- What a range is read as, unless it is a single star. -/
theorem ofText_eq {range : String} {first : List Char} {later : List (List Char)}
    (hsubtags : subtags range = first :: later) (hrange : IsRange range) (hstar : range ≠ "*") :
    ofText range = .extended (if first = ['*'] then none else some (String.ofList first))
      ((withoutStars later).map String.ofList) := by
  have hsplit : splitAt '-' range = String.ofList first :: later.map String.ofList := by
    rw [splitAt, ← List.map_cons]
    exact congrArg _ hsubtags
  rw [IsRange, hsubtags] at hrange
  have hne : range ≠ "" := by
    rintro rfl
    obtain ⟨rfl, rfl⟩ := List.cons.inj (hsubtags.symm.trans rfl : first :: later = [[]])
    rcases hrange [] List.mem_cons_self with h | h
    · cases h
    · exact h.1 rfl
  have hall : (String.ofList first :: later.map String.ofList).all isSubtag = true := by
    rw [← List.map_cons, List.all_map, List.all_eq_true]
    exact fun s hs => isSubtag_ofList (hrange s hs)
  rw [ofText, if_neg (by simpa using hstar), if_neg (by simpa using hne), hsplit]
  simp only [hall, if_true, beq_iff_eq, ofList_eq_star_iff, List.filter_map]
  congr 2
  refine List.filter_congr fun s _ => ?_
  rw [Function.comp_apply, bne, Bool.eq_iff_iff, Bool.not_eq_true', decide_eq_true_iff,
    beq_eq_false_iff_ne, ne_eq, ofList_eq_star_iff]

theorem beginsWith_iff {first head : List Char} (hfirst : first = ['*'] ∨ IsPlain first)
    (hhead : IsPlain head) (halpha : ∀ c ∈ head, c.isAlpha = true) :
    beginsWith ((if first = ['*'] then none else some (String.ofList first)).map String.toList)
      head = true ↔ first = ['*'] ∨ EqualSubtags first head := by
  split
  · rename_i hstar
    refine iff_of_true ?_ (.inl hstar)
    rw [Option.map_none, beginsWith, Bool.and_eq_true, List.all_eq_true]
    refine ⟨by simpa using hhead.1, fun c hc => ?_⟩
    exact isAlpha_caseFold c (mem_foldable_of_lt (lt_of_isAlnum (hhead.2 c hc))) (halpha c hc)
  · rename_i hstar
    rw [or_iff_right hstar, Option.map_some, String.toList_ofList]
    exact sameSubtag_iff (hfirst.resolve_left hstar) hhead

theorem selects_ofText_iff {range tag : String} {first head : List Char}
    {later rest : List (List Char)} (hsubtags : subtags range = first :: later)
    (hrange : IsRange range) (htag : subtags tag = head :: rest) (hplain : IsTag tag) :
    (ofText range).selects tag = true ↔
      (first = ['*'] ∨ EqualSubtags first head) ∧ inOrder (withoutStars later) rest = true := by
  rw [IsTag, htag] at hplain
  obtain ⟨⟨hhead, hrest⟩, halpha⟩ := And.imp_left List.forall_mem_cons.mp hplain
  -- a single star is read as any language, not as a range without later subtags
  by_cases hstar : range = "*"
  · subst hstar
    obtain ⟨rfl, rfl⟩ := List.cons.inj (hsubtags.symm.trans rfl : first :: later = [['*']])
    refine iff_of_true ?_ ⟨.inl rfl, by cases rest <;> rfl⟩
    have hne : tag ≠ "" := by
      rintro rfl
      obtain ⟨rfl, -⟩ := List.cons.inj (htag.symm.trans rfl : head :: rest = [[]])
      exact hhead.1 rfl
    change (!tag.isEmpty) = true
    simpa using hne
  · have hfirst : first = ['*'] ∨ IsPlain first := hrange first (hsubtags ▸ List.mem_cons_self)
    have hwords : rest.all isWord = true :=
      List.all_eq_true.mpr fun t ht => isWord_of_isPlain (hrest t ht)
    rw [ofText_eq hsubtags hrange hstar, selects_of_cut htag, hwords, Bool.and_true,
      Bool.and_eq_true, beginsWith_iff hfirst hhead (List.all_eq_true.mp (halpha head rfl)),
      List.map_map]
    simp

theorem selects_iff_acceptsUnbarred {range tag : String} (hrange : IsRange range)
    (htag : IsTag tag) :
    (ofText range).selects tag = true ↔ (filtering range tag).AcceptsUnbarred := by
  obtain ⟨first, later, hsubtags⟩ := exists_subtags range
  obtain ⟨head, rest, htags⟩ := exists_subtags tag
  have hlater : ∀ s ∈ later, s = ['*'] ∨ IsPlain s := fun s hs =>
    hrange s (hsubtags ▸ List.mem_cons_of_mem first hs)
  have hrest : ∀ t ∈ rest, IsPlain t := fun t ht => htag.1 t (htags ▸ List.mem_cons_of_mem head ht)
  rw [selects_ofText_iff hsubtags hrange htags htag, inOrder_iff_searchLater hlater hrest]
  simp only [filtering, hsubtags, htags]
  split
  · rename_i hfirst
    exact and_iff_right hfirst
  · rename_i hfirst
    exact iff_of_false (fun h => hfirst h.1) id

theorem acceptsUnbarred_iff {v : Verdict} : v.AcceptsUnbarred ↔
    v = .accepted ∨ ∃ later rest, v = .barred later rest ∧ Occur later rest := by
  cases v <;> simp [Verdict.AcceptsUnbarred]

theorem exists_mem_tail_of_barred {range tag : String} {later rest : List (List Char)}
    (h : filtering range tag = .barred later rest) :
    ∃ bar ∈ (subtags tag).tail, bar.length = 1 := by
  unfold filtering at h
  split at h
  · rename_i htags
    split at h
    · obtain ⟨before, bar, rfl, hbar⟩ := eq_append_of_barred h
      refine ⟨bar, ?_, hbar⟩
      rw [htags]
      exact List.mem_append_right before List.mem_cons_self
    · cases h
  · cases h

/-- A range selects the tags that filtering accepts, and those which a subtag of one
character bars from it although the rest of the range comes after. -/
theorem selects_iff_filtering {range tag : String} (hrange : IsRange range) (htag : IsTag tag) :
    (ofText range).selects tag = selectsByPattern range tag ∧
      ((ofText range).selects tag = true ↔ filtering range tag = .accepted ∨
        ∃ later rest, filtering range tag = .barred later rest ∧ Occur later rest) ∧
      ((∀ s ∈ (subtags tag).tail, s.length ≠ 1) →
        ((ofText range).selects tag = true ↔ filtering range tag = .accepted)) := by
  have hselects := (selects_iff_acceptsUnbarred hrange htag).trans acceptsUnbarred_iff
  refine ⟨selects_eq range tag, hselects, fun hlength => hselects.trans (or_iff_left ?_)⟩
  rintro ⟨later, rest, hbarred, -⟩
  obtain ⟨bar, hbar, hone⟩ := exists_mem_tail_of_barred hbarred
  exact hlength bar hbar hone

theorem selects_iff_filtering_german : IsRange "de-*-DE" ∧ IsTag "de-Latn-DE-1996" ∧
    (ofText "de-*-DE").selects "de-Latn-DE-1996" = true ∧
      filtering "de-*-DE" "de-Latn-DE-1996" = .accepted := by
  have hrange : IsRange "de-*-DE" := by decide
  have htag : IsTag "de-Latn-DE-1996" := by decide
  obtain ⟨-, -, hplain⟩ := selects_iff_filtering hrange htag
  have haccepted : filtering "de-*-DE" "de-Latn-DE-1996" = .accepted := by
    cbv
  exact ⟨hrange, htag, (hplain (by decide)).mpr haccepted, haccepted⟩

/-- A region is found behind the mark of private use, where filtering is barred. -/
theorem selects_behind_bar : ¬ ∀ range tag : String, IsRange range → IsTag tag →
    ((ofText range).selects tag = true ↔ filtering range tag = .accepted) := by
  intro h
  have hselects : (ofText "de-DE").selects "de-x-DE" = true := by decide
  have hbarred : filtering "de-DE" "de-x-DE" = .barred ["DE".toList] ["DE".toList] := by
    cbv
  have haccepted := (h "de-DE" "de-x-DE" (by decide) (by decide)).mp hselects
  cases hbarred.symm.trans haccepted

end DomQuery.Text.LanguageRange
