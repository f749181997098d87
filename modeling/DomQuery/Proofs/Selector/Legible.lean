import DomQuery.Proofs.Selector.Reread

/-!
# Reading branches that were written

A branch that was read has its components in an order from which its text can be read
again, if type selectors begin their compounds: what is written of two simple selectors
that follow each other touches. Blanks stand around the combinators, so that a combinator
and the simple selectors next to it are tokens of their own.

* `Legible`: components in the order of the text, with what they ask of each other.
* `ReadsTo`, `ReadsOn`: what is read of values after a part of the branch.
* `Legible.spells`: the text of components is read as the components.
-/

namespace DomQuery.Selector

open DomQuery.Css DomQuery.Text

/-! ### Components in order -/

/-- Components that may follow a compound if `ends` holds, and else a combinator or nothing:
descendant combinators stand between simple selectors, and a type selector follows none. -/
inductive Legible : Bool → List Component → Prop
  | nil {ends : Bool} : Legible ends []
  | combinator {ends : Bool} {c : Combinator} {todo : List Component} (hc : c ≠ .descendant)
      (h : Legible false todo) : Legible ends (.combinator c :: todo)
  | simple {ends : Bool} {s : Component} {todo : List Component} (hs : ∀ c, s ≠ .combinator c)
      (ht : ends = true → s.isType = false) (h : Legible true todo) : Legible ends (s :: todo)
  | descendant {s : Component} {todo : List Component} (hs : ∀ c, s ≠ .combinator c)
      (h : Legible true todo) : Legible true (.combinator .descendant :: s :: todo)

theorem endsCompound_simple {s : Component} (hs : ∀ c, s ≠ .combinator c)
    (components : List Component) : endsCompound (s :: components) = true := by
  cases s with
  | combinator c => exact absurd rfl (hs c)
  | _ => rfl

theorem Spaced.legible {components : List Component} (h : Spaced components)
    (hapart : components.IsChain (flip Apart)) {todo : List Component}
    (htodo : Legible (endsCompound components) todo) :
    Legible false (components.reverse ++ todo) := by
  induction h generalizing todo with
  | nil => exact htodo
  | combinator hc _ ih =>
    rw [List.reverse_cons, List.append_assoc]
    exact ih hapart.of_cons (.combinator hc htodo)
  | @simple s components hs space _ ih =>
    rw [endsCompound_simple hs] at htodo
    rw [apart_cons_joined] at hapart
    obtain ⟨hapart, htype⟩ := hapart
    unfold joined
    split
    · rename_i hspace
      obtain ⟨-, hends⟩ := Bool.and_eq_true_iff.mp hspace
      rw [List.reverse_cons, List.reverse_cons, List.append_assoc, List.append_assoc]
      exact ih hapart (hends ▸ .descendant hs htodo)
    · rename_i hspace
      rw [List.reverse_cons, List.append_assoc]
      refine ih hapart (.simple hs (fun hends => ?_) htodo)
      refine Bool.eq_false_iff.mpr fun ht => hspace ?_
      have hnone := htype ht
      rw [hends] at hnone
      simpa [hends] using hnone

/-- The components of a branch that was read, in order. -/
theorem Complex.Fits.legible {within : Complex} (h : within.Fits) (ht : within.TypesFirst) :
    Legible false within.components := by
  have hapart : within.components.reverse.IsChain (flip Apart) := by
    rw [List.isChain_reverse]
    exact typesFirst_iff.mp ht
  have hlegible : Legible false (within.components.reverse.reverse ++ []) :=
    h.spaced.legible hapart .nil
  rwa [List.reverse_reverse, List.append_nil] at hlegible

/-! ### Branches -/

theorem Component.texts_simple {s : Component} (hs : ∀ c, s ≠ .combinator c) (first : Bool)
    (todo : List Component) : texts first (s :: todo) = s.text ++ texts false todo := by
  cases s with
  | combinator c => exact absurd rfl (hs c)
  | _ => rfl

theorem Component.toList_texts_combinator {c : Combinator} (hc : c ≠ .descendant) (first : Bool)
    (todo : List Component) : (texts first (.combinator c :: todo)).toList =
      List.replicate (if first then 0 else 1) ' ' ++
        (c.text.toList ++ (List.replicate 1 ' ' ++ (texts false todo).toList)) := by
  have htext : combinatorText first c = (if first then "" else " ") ++ c.text ++ " " := by
    cases c <;> first | rfl | exact absurd rfl hc
  rw [texts, htext]
  cases first <;> simp

/-- What follows a branch: nothing, a comma or the end of a block. -/
def EndsBranch (rest : List Char) : Prop :=
  ∀ c ∈ rest.head?, c = ',' ∨ c = ')'

section Branches

variable {rest : List Char} {s : Component} {todo : List Component}

theorem EndsBranch.bounds (h : EndsBranch rest) : Bounds rest := by
  intro c hc
  rcases h c hc with rfl | rfl
  · simp
  · simp

theorem EndsBranch.not_isSpace (h : EndsBranch rest) : ∀ c ∈ rest.head?, isSpace c = false := by
  intro c hc
  rcases h c hc with rfl | rfl
  · rfl
  · rfl

/-- The text of a simple selector that is no type selector begins with a mark of its own. -/
theorem Component.exists_mark (hs : ∀ c, s ≠ .combinator c) (ht : s.isType = false) :
    ∃ c ∈ ['#', '.', '[', ':'], ∃ tail, s.text.toList = c :: tail := by
  rcases s with c | t | name | name | a | ⟨name, a⟩ | ⟨name, _ | a⟩
  · exact absurd rfl (hs c)
  · cases ht
  · exact ⟨'#', by simp, by simp [text]⟩
  · exact ⟨'.', by simp, by simp [text]⟩
  · exact ⟨'[', by simp, _, a.toList_text⟩
  · exact ⟨':', by simp, by simp [text]⟩
  · exact ⟨':', by simp, by simp [text]⟩
  · exact ⟨':', by simp, by simp [text]⟩

theorem Legible.bounds (h : Legible true todo) (hrest : EndsBranch rest) :
    Bounds ((Component.texts false todo).toList ++ rest) := by
  cases h with
  | nil => exact hrest.bounds
  | combinator hc =>
    rw [Component.toList_texts_combinator hc]
    exact @Bounds.cons ' ' _ (by simp)
  | simple hs ht =>
    obtain ⟨c, hc, tail, htext⟩ := Component.exists_mark hs (ht rfl)
    rw [Component.texts_simple hs, String.toList_append, htext]
    refine Bounds.cons ?_
    simp only [List.mem_cons, List.not_mem_nil, or_false] at hc ⊢
    tauto
  | descendant =>
    rw [Component.texts, String.toList_append]
    exact @Bounds.cons ' ' _ (by simp)

theorem TypeSelector.not_isSpace_text {t : TypeSelector} (h : t.Sound) (rest : List Char) :
    ∀ c ∈ (t.text.toList ++ rest).head?, isSpace c = false := by
  have hlocalName : ∀ c ∈ ((if t.isUniversal then "*" else identifier t.localName).toList ++
      rest).head?, isSpace c = false := by
    split
    · rintro _ ⟨⟩
      rfl
    · exact not_isSpace_of_startsIdent (startsIdent_identifier h.localName rest)
  rw [text, String.toList_append, List.append_assoc]
  rcases hq : t.qualifier with _ | _ | _ | p
  · exact hlocalName
  · rintro _ ⟨⟩
    rfl
  · rintro _ ⟨⟩
    rfl
  · have hp : IsName p := h.qualifier (.named p) hq
    rw [qualifierText, Qualifier.text, String.toList_append, List.append_assoc]
    exact not_isSpace_of_startsIdent (startsIdent_identifier hp _)

/-- No simple selector begins with white space. -/
theorem Component.not_isSpace_text (hs : ∀ c, s ≠ .combinator c) (h : s.Fits) (rest : List Char) :
    ∀ c ∈ (s.text.toList ++ rest).head?, isSpace c = false := by
  rcases hmark : s.isType with _ | _
  · obtain ⟨c, hc, tail, htext⟩ := exists_mark hs hmark
    rw [htext]
    rintro _ ⟨⟩
    simp only [List.mem_cons, List.not_mem_nil, or_false] at hc
    rcases hc with rfl | rfl | rfl | rfl
    all_goals rfl
  · cases s <;> cases hmark
    exact TypeSelector.not_isSpace_text h rest

/-! ### Reading a branch -/

def Combinator.token : Combinator → Token
  | .descendant => .whitespace " "
  | .child => .delim '>'
  | .nextSibling => .delim '+'
  | .subsequentSibling => .delim '~'

theorem Combinator.spells {c : Combinator} (hc : c ≠ .descendant) (rest : List Char) :
    Spells c.text.toList [.token c.token] (' ' :: rest) := by
  have hscan : Token.scan? (c.text.toList ++ ' ' :: rest) = some (c.token, ' ' :: rest) := by
    cases c <;> first | rfl | exact absurd rfl hc
  cases c <;> exact spells_token hscan rfl

theorem Combinator.combinator?_token {c : Combinator} (hc : c ≠ .descendant) :
    combinator? (.token c.token) = some c ∧ c.token.isWhitespace = false ∧ c.token ≠ .comma ∧
      c.token ≠ .delim '|' := by
  cases c
  case descendant => exact absurd rfl hc
  all_goals exact ⟨rfl, rfl, nofun, by decide⟩

/-- After the components `done`, last first, the values are read as `out`, up to the numbers of
lists; `space` tells whether white space came between. -/
def ReadsTo (space : Bool) (done : List Component) (vs : List Value) (out : List Component) : Prop :=
  ∀ fuel, (Item.ofValues vs).length ≤ fuel →
    Gives (readComponents fuel space done (Item.ofValues vs)) fun found =>
      found.map Component.unnumbered = out.map Component.unnumbered

namespace ReadsTo

variable {space : Bool} {done out out' : List Component} {vs : List Value}

theorem congr (h : ReadsTo space done vs out)
    (hout : out.map Component.unnumbered = out'.map Component.unnumbered) :
    ReadsTo space done vs out' := by
  rw [ReadsTo, ← hout]
  exact h

theorem nil (h : done ≠ []) : ReadsTo space done [] done.reverse := by
  intro fuel _
  obtain ⟨c, done, rfl⟩ := List.exists_cons_of_ne_nil h
  have hread : readComponents fuel space (c :: done) [] = pure (c :: done).reverse := by
    cases fuel <;> rfl
  change Gives (readComponents fuel space (c :: done) []) _
  rw [hread]
  exact .pure rfl

theorem blanks {k : Nat} (h : ReadsTo (space || k ≠ 0) done vs out) :
    ReadsTo space done (blankValues k ++ vs) out := by
  rcases k with _ | k
  · have hsame : ReadsTo space done vs out := by simpa using h
    exact hsame
  · have hspace : ReadsTo true done vs out := by simpa using h
    intro fuel hle
    rcases fuel with _ | fuel
    · cases hle
    change Gives (readComponents (fuel + 1) space done (.token (.whitespace _) :: Item.ofValues vs)) _
    rw [readComponents]
    exact hspace fuel (Nat.le_of_succ_le_succ hle)

theorem combinator {c : Combinator} (hc : c ≠ .descendant)
    (h : ReadsTo false (.combinator c :: done) vs out) :
    ReadsTo space done (.token c.token :: vs) out := by
  intro fuel hle
  rcases fuel with _ | fuel
  · cases hle
  obtain ⟨hcombinator, hblank, -⟩ := Combinator.combinator?_token hc
  change Gives (readComponents (fuel + 1) space done (.token c.token :: Item.ofValues vs)) _
  rw [readComponents, Item.first, hblank, hcombinator]
  exact h fuel (Nat.le_of_succ_le_succ hle)

theorem simple {v : Value} {tail : List Value} (hs : s.ReadsBack v tail)
    (hunbarred : s.isType = true → Unbarred (Item.ofValues vs))
    (h : ∀ s' : Component, s'.unnumbered = s.unnumbered →
      ReadsTo false (s' :: joined space done) vs out) :
    ReadsTo space done (v :: tail ++ vs) out := by
  intro fuel hle
  rw [List.cons_append, Item.ofValues, Item.ofValues_append] at hle ⊢
  rcases fuel with _ | fuel
  · cases hle
  have hle := Nat.le_of_succ_le_succ hle
  rw [List.length_append] at hle
  rw [readComponents, hs.opens.blank, hs.opens.combinator]
  refine (hs.reads _ hunbarred).bind ?_
  rintro ⟨s', after⟩ ⟨hs', rfl⟩
  exact h s' hs' fuel (by omega)

end ReadsTo

/-- After components that end a compound if `ends` holds, the values are read as `todo`. -/
structure ReadsOn (ends : Bool) (todo : List Component) (vs : List Value) : Prop where
  comma : ∀ v ∈ vs, v.first ≠ .comma
  bar : ends = true → ∀ v ∈ vs.head?, v.first ≠ .delim '|'
  reads : ∀ {space : Bool} {done : List Component}, endsCompound done = ends →
    (space = true → ends = false) → (todo = [] → done ≠ []) →
      ReadsTo space done vs (done.reverse ++ todo)

theorem unbarred_ofValues {vs : List Value} (h : ∀ v ∈ vs.head?, v.first ≠ .delim '|') :
    Unbarred (Item.ofValues vs) := by
  intro i name rest _ heq
  rcases vs with _ | ⟨v, vs⟩
  · cases heq
  · have hfirst : (Item.ofValue v).first = .delim '|' :=
      congrArg Item.first (List.cons.inj heq).1
    rw [Item.first_ofValue] at hfirst
    exact h v rfl hfirst

section Blanks

variable {vs : List Value} (k : Nat)

theorem first_of_mem_blankValues {v : Value} (h : v ∈ blankValues k) :
    v.first ≠ .comma ∧ v.first ≠ .delim '|' := by
  unfold blankValues at h
  split at h
  · cases h
  · obtain rfl := List.mem_singleton.mp h
    exact ⟨nofun, nofun⟩

theorem ne_comma_blanks (h : ∀ v ∈ vs, v.first ≠ .comma) :
    ∀ v ∈ blankValues k ++ vs, v.first ≠ .comma :=
  List.forall_mem_append.mpr ⟨fun _ hv => (first_of_mem_blankValues k hv).1, h⟩

theorem ne_bar_blanks (h : ∀ v ∈ vs.head?, v.first ≠ .delim '|') :
    ∀ v ∈ (blankValues k ++ vs).head?, v.first ≠ .delim '|' := by
  intro v hv
  rw [List.head?_append] at hv
  rcases Option.or_eq_some_iff.mp hv with hv | ⟨-, hv⟩
  · exact (first_of_mem_blankValues k (List.mem_of_head? hv)).2
  · exact h v hv

end Blanks

theorem readsOn_blanks {ends : Bool} (k : Nat) : ReadsOn ends [] (blankValues k) := by
  rw [← List.append_nil (blankValues k)]
  refine ⟨ne_comma_blanks k nofun, fun _ => ne_bar_blanks k nofun, fun {space done} _ _ hdone => ?_⟩
  have hread : ReadsTo space done (blankValues k ++ []) done.reverse := .blanks (.nil (hdone rfl))
  rwa [← List.append_nil done.reverse] at hread

theorem ReadsOn.combinator {ends : Bool} {c : Combinator} {vs : List Value} (hc : c ≠ .descendant)
    (h : ReadsOn false todo vs) (k : Nat) :
    ReadsOn ends (.combinator c :: todo) (blankValues k ++ .token c.token :: vs) := by
  obtain ⟨-, -, hcomma, hbar⟩ := Combinator.combinator?_token hc
  refine ⟨ne_comma_blanks k (List.forall_mem_cons.mpr ⟨hcomma, h.comma⟩),
    fun _ => ne_bar_blanks k ?_, fun {space done} _ _ _ => .blanks (.combinator hc ?_)⟩
  · rintro _ ⟨⟩
    exact hbar
  · have hread : ReadsTo false (.combinator c :: done) vs ((.combinator c :: done).reverse ++ todo) :=
      h.reads rfl nofun fun _ => List.cons_ne_nil _ _
    rwa [List.reverse_cons, List.append_assoc] at hread

theorem spells_combinator {c : Combinator} {vs : List Value} (hc : c ≠ .descendant)
    (h : Spells (List.replicate 1 ' ' ++ (Component.texts false todo).toList) vs rest) (k : Nat)
    (first : Bool) :
    Spells (List.replicate k ' ' ++ (Component.texts first (.combinator c :: todo)).toList)
      (blankValues (k + if first then 0 else 1) ++ .token c.token :: vs) rest := by
  rw [Component.toList_texts_combinator hc, ← List.append_assoc, List.replicate_append_replicate]
  have htoken : Spells c.text.toList [.token c.token]
      (List.replicate 1 ' ' ++ (Component.texts false todo).toList ++ rest) := Combinator.spells hc _
  refine (spells_blanks _ fun d hd => ?_).append (htoken.append h)
  cases c <;> cases hd
  case descendant => exact absurd rfl hc
  all_goals rfl

/-- The values are those of a simple selector and of what follows it. -/
structure ReadsNext (s : Component) (todo : List Component) (vs : List Value) : Prop where
  comma : ∀ v ∈ vs, v.first ≠ .comma
  bar : s.isType = false → ∀ v ∈ vs.head?, v.first ≠ .delim '|'
  reads : ∀ space done, ReadsTo space done vs ((joined space done).reverse ++ s :: todo)

theorem ReadsNext.readsOn {ends : Bool} {vs : List Value} (h : ReadsNext s todo vs)
    (ht : ends = true → s.isType = false) {k : Nat} (hk : k ≠ 0 → ends = false) :
    ReadsOn ends (s :: todo) (blankValues k ++ vs) := by
  refine ⟨ne_comma_blanks k h.comma, fun hends => ne_bar_blanks k (h.bar (ht hends)), ?_⟩
  intro space done hdone hspace _
  have hjoined : joined (space || k ≠ 0) done = done := by
    unfold joined
    rw [hdone, if_neg]
    simp only [Bool.and_eq_true, Bool.or_eq_true, decide_eq_true_eq]
    rintro ⟨hblank | hblank, hends⟩
    · simp [hspace hblank] at hends
    · simp [hk hblank] at hends
  have hread := h.reads (space || k ≠ 0) done
  rw [hjoined] at hread
  exact .blanks hread

theorem ReadsNext.readsOn_descendant {vs : List Value} (h : ReadsNext s todo vs) :
    ReadsOn true (.combinator .descendant :: s :: todo) (blankValues 1 ++ vs) := by
  refine ⟨ne_comma_blanks 1 h.comma, fun _ => ?_, ?_⟩
  · rintro _ ⟨⟩
    exact nofun
  · intro space done hdone _ _
    have hjoined : joined (space || (1 : Nat) ≠ 0) done = .combinator .descendant :: done := by
      simp [joined, hdone]
    have hread := h.reads (space || (1 : Nat) ≠ 0) done
    rw [hjoined, List.reverse_cons, List.append_assoc] at hread
    exact .blanks hread

/-- The component is one that is read, and the lists in it are read back. -/
structure Component.Readable (c : Component) : Prop where
  fits : c.Fits
  isVerbatim : c.isVerbatim = false
  lists : ∀ list ∈ c.lists, list.ReadsBack

theorem spells_simple {vs : List Value} (hs : ∀ c, s ≠ .combinator c) (h : s.Readable)
    (hlegible : Legible true todo) (hrest : EndsBranch rest)
    (hspells : Spells (Component.texts false todo).toList vs rest) (hreads : ReadsOn true todo vs) :
    ∃ ws, (∀ k, Spells (List.replicate k ' ' ++ (s.text ++ Component.texts false todo).toList)
      (blankValues k ++ ws) rest) ∧ ReadsNext s todo ws := by
  obtain ⟨v, tail, hsimple, hback⟩ :=
    Component.spells hs h.fits h.isVerbatim h.lists (hlegible.bounds hrest)
  refine ⟨v :: tail ++ vs, fun k => ?_, ⟨?_, ?_, fun space done => .simple hback ?_ fun s' hs' => ?_⟩⟩
  · have hblanks := Component.not_isSpace_text hs h.fits ((Component.texts false todo).toList ++ rest)
    rw [← List.append_assoc] at hblanks
    rw [String.toList_append]
    exact (spells_blanks k hblanks).append (hsimple.append hspells)
  · exact List.forall_mem_append.mpr ⟨hback.comma, hreads.comma⟩
  · rintro ht _ ⟨⟩
    exact hback.bar ht
  · exact fun _ => unbarred_ofValues (hreads.bar rfl)
  · have hne : ∀ c, s' ≠ .combinator c := by
      rintro c rfl
      exact hs c (Component.combinator_of_unnumbered hs'.symm)
    have hread : ReadsTo false (s' :: joined space done) vs ((s' :: joined space done).reverse ++ todo) :=
      hreads.reads (endsCompound_simple hne _) nofun fun _ => List.cons_ne_nil _ _
    exact hread.congr (by simp [hs'])

/-- The text of components, also with blanks in front of it, is read as the components. -/
theorem Legible.spells {ends : Bool} (h : Legible ends todo) (hc : ∀ c ∈ todo, c.Readable)
    (hrest : EndsBranch rest) {k : Nat} (hk : k ≠ 0 → ends = false) (first : Bool) :
    ∃ vs, Spells (List.replicate k ' ' ++ (Component.texts first todo).toList) vs rest ∧
      ReadsOn ends todo vs := by
  induction h generalizing k first with
  | nil =>
    rw [Component.texts, String.toList_empty, List.append_nil]
    exact ⟨blankValues k, spells_blanks k hrest.not_isSpace, readsOn_blanks k⟩
  | combinator hne _ ih =>
    -- The blank behind the combinator is read with what follows.
    obtain ⟨vs, hspells, hreads⟩ :=
      ih (List.forall_mem_cons.mp hc).2 (fun _ : (1 : Nat) ≠ 0 => rfl) false
    exact ⟨_, spells_combinator hne hspells k first, hreads.combinator hne _⟩
  | simple hs ht hlegible ih =>
    obtain ⟨hreadable, hc⟩ := List.forall_mem_cons.mp hc
    obtain ⟨vs, hspells, hreads⟩ := ih hc (fun h : (0 : Nat) ≠ 0 => absurd rfl h) false
    obtain ⟨ws, hspells, hnext⟩ := spells_simple hs hreadable hlegible hrest hspells hreads
    rw [Component.texts_simple hs]
    exact ⟨blankValues k ++ ws, hspells k, hnext.readsOn ht hk⟩
  | descendant hs hlegible ih =>
    obtain ⟨hreadable, hc⟩ := List.forall_mem_cons.mp (List.forall_mem_cons.mp hc).2
    obtain ⟨vs, hspells, hreads⟩ := ih hc (fun h : (0 : Nat) ≠ 0 => absurd rfl h) false
    obtain ⟨ws, hspells, hnext⟩ := spells_simple hs hreadable hlegible hrest hspells hreads
    obtain rfl : k = 0 := by
      by_contra hne
      exact nomatch hk hne
    have hblank : (combinatorText first .descendant).toList = List.replicate 1 ' ' := by
      simp [combinatorText]
    rw [Component.texts, Component.texts_simple hs, String.toList_append, hblank]
    exact ⟨blankValues 1 ++ ws, hspells 1, hnext.readsOn_descendant⟩

end Branches

end DomQuery.Selector
