import DomQuery.Proofs.Css.Opened
import DomQuery.Proofs.Css.Words
import DomQuery.Proofs.Selector.Origin

/-!
# Arguments that are kept as words

`:lang()`, `:dir()` and `:state()` keep what stands between their brackets as words. A word
with a star in it is written as it is, since the star of a language range is no identifier;
other words are written with escapes where they need them.

* `says_readRange`, `says_readKeyword`: what a list of words was read from.
* `worded_of_parse`: what is known of the words that are kept.
* `exists_run_of_call`: how the argument is read of a text that is one pseudo-class.
-/

namespace DomQuery.Selector

open DomQuery.Css DomQuery.Text

variable {cs rest : List Char} {vs : List Value} {items group : List Item} {name : String}

/-! ### Where words are read -/

/-- An item in a language range says a part of it, or the range is not read. -/
theorem readRange_cons (i : Item) :
    (∃ said, i.first.said? = some said ∧
      ∀ items, readRange (i :: items) = (String.ofList said ++ ·) <$> readRange items) ∨
    ∃ e, ∀ items, readRange (i :: items) = .error e := by
  simp only [readRange]
  cases i.first
  case ident part | quoted part =>
    refine .inl ⟨part.toList, rfl, fun items => ?_⟩
    rw [String.ofList_toList]
  case whitespace =>
    refine .inl ⟨[], rfl, fun items => ?_⟩
    have hnothing : (String.ofList [] ++ ·) = (id : String → String) :=
      funext fun _ => String.empty_append
    rw [hnothing, id_map]
  case delim c =>
    by_cases hc : c = '*'
    · subst hc
      exact .inl ⟨['*'], rfl, fun items => rfl⟩
    · refine .inr ⟨.unexpected (.delim c), fun items => ?_⟩
      split
      · cases ‹_›
      · cases ‹_›
      · exact absurd (Token.delim.inj ‹_›) hc
      · cases ‹_›
      · rfl
  all_goals exact .inr ⟨_, fun _ => rfl⟩

theorem exists_readRange {i : Item} {text : String} (h : readRange (i :: items) = .ok text) :
    ∃ said text', i.first.said? = some said ∧ text.toList = said ++ text'.toList ∧
      readRange items = .ok text' := by
  rcases readRange_cons i with ⟨said, hsaid, hread⟩ | ⟨e, herror⟩
  · obtain ⟨text', htext, rfl⟩ := map_eq_ok.mp ((hread items).symm.trans h)
    exact ⟨said, text', hsaid, by simp, htext⟩
  · cases (herror items).symm.trans h

/-- The first of the groups between commas, and the other ones. -/
theorem splitCommas_cons {i : Item} (h : i.isComma = false) (rest : List Item) :
    ∃ group groups, splitCommas rest = group :: groups ∧
      splitCommas (i :: rest) = (i :: group) :: groups := by
  obtain ⟨group, groups, hsplit⟩ := List.exists_cons_of_ne_nil (splitCommas_ne_nil rest)
  refine ⟨group, groups, hsplit, ?_⟩
  rw [splitCommas, h, hsplit]
  rfl

/-- All but comments stand for a value. -/
theorem value?_cases (t : Token) : (∃ text, t = .comment text) ∨ t.value? = some (.token t) := by
  cases t
  case comment text => exact .inl ⟨text, rfl⟩
  all_goals exact .inr rfl

theorem says_readRange (h : Holds cs vs) {words : List String}
    (hread : (splitCommas (Item.ofValues vs)).mapM readRange = .ok words) :
    Says True cs (words.map String.toList) := by
  induction h generalizing words with
  | nil =>
    cases hread
    exact .nil
  | close hscan =>
    cases hread
    rw [eq_of_scan?_close hscan]
    exact .close _
  | @bracket cs rest t v vs hscan ht hne hv =>
    have hcomma : (Item.ofValue v).isComma = false := by
      rw [Item.isComma, Item.first_ofValue, hv]
      exact beq_false_of_ne (by rintro rfl; cases ht)
    obtain ⟨group, groups, -, hsplit⟩ := splitCommas_cons hcomma (Item.ofValues vs)
    rw [Item.ofValues, hsplit, List.mapM_cons] at hread
    obtain ⟨word, hword, -⟩ := bind_eq_ok.mp hread
    obtain ⟨said, -, hsaid, -⟩ := exists_readRange hword
    rw [Item.first_ofValue, hv, said?_of_isBracket ht] at hsaid
    cases hsaid
  | @token cs rest t vs hscan ht h ih =>
    rcases value?_cases t with ⟨text, rfl⟩ | hvalue
    · obtain ⟨word, later, hwords⟩ := (ih hread).exists_cons
      rw [hwords]
      exact .token hscan rfl (fun _ => trivial) (hwords ▸ ih hread)
    rw [hvalue] at hread
    change (splitCommas (.token t :: Item.ofValues vs)).mapM readRange = .ok words at hread
    by_cases hcomma : t = .comma
    · subst hcomma
      obtain ⟨word, hword, hread⟩ := bind_eq_ok.mp (List.mapM_cons.symm.trans hread)
      obtain ⟨later, hlater, hread⟩ := bind_eq_ok.mp hread
      cases hword
      obtain rfl := pure_eq_ok.mp hread
      rw [eq_of_scan?_comma hscan]
      exact .comma (ih hlater)
    · obtain ⟨group, groups, hrest, hsplit⟩ :=
        splitCommas_cons (i := .token t) (beq_false_of_ne hcomma) (Item.ofValues vs)
      rw [hsplit, List.mapM_cons] at hread
      obtain ⟨word, hword, hread⟩ := bind_eq_ok.mp hread
      obtain ⟨later, hlater, hread⟩ := bind_eq_ok.mp hread
      obtain rfl := pure_eq_ok.mp hread
      obtain ⟨said, word', hsaid, hsame, hgroup⟩ := exists_readRange hword
      have hread : (splitCommas (Item.ofValues vs)).mapM readRange = .ok (word' :: later) := by
        rw [hrest, List.mapM_cons, hgroup, hlater]
        rfl
      have hspoken := ih hread
      rw [List.map_cons, hsame]
      exact .token hscan hsaid (fun _ => trivial) hspoken

theorem skipSpace_blank {i : Item} (h : i.first.isWhitespace = true) (items : List Item) :
    skipSpace Item.first (i :: items) = skipSpace Item.first items :=
  List.dropWhile_cons_of_pos h

theorem skipSpace_of_not_blank {i : Item} (h : i.first.isWhitespace = false) (items : List Item) :
    skipSpace Item.first (i :: items) = i :: items :=
  List.dropWhile_cons_of_neg (Bool.eq_false_iff.mp h)

theorem isWhitespace_of_isBracket {t : Token} (h : t.isBracket = true) : t.isWhitespace = false := by
  cases t
  case whitespace => cases h
  all_goals rfl

theorem said?_of_isWhitespace {t : Token} (h : t.isWhitespace = true) :
    t.said? = some [] ∧ t ≠ .delim '*' := by
  cases t
  case whitespace => exact ⟨rfl, nofun⟩
  all_goals cases h

/-- Nothing but blanks is left. -/
theorem says_expectEnd (h : Holds cs vs) (hread : expectEnd Item.first (Item.ofValues vs) = .ok ()) :
    Says False cs [[]] := by
  induction h with
  | nil => exact .nil
  | close hscan =>
    rw [eq_of_scan?_close hscan]
    exact .close _
  | @bracket cs rest t v vs hscan ht hne hv =>
    have hblank : (Item.ofValue v).first.isWhitespace = false :=
      isWhitespace_of_isBracket (by rwa [Item.first_ofValue, hv])
    rw [Item.ofValues, expectEnd, skipSpace_of_not_blank hblank] at hread
    cases hread
  | @token cs rest t vs hscan ht h ih =>
    rcases value?_cases t with ⟨text, rfl⟩ | hvalue
    · exact .token hscan rfl nofun (ih hread)
    rw [hvalue] at hread
    change expectEnd Item.first (.token t :: Item.ofValues vs) = .ok () at hread
    rcases hblank : t.isWhitespace with _ | _
    · rw [expectEnd, skipSpace_of_not_blank (i := .token t) hblank] at hread
      cases hread
    · rw [expectEnd, skipSpace_blank (i := .token t) hblank] at hread
      obtain ⟨hsaid, hstar⟩ := said?_of_isWhitespace hblank
      exact .token hscan hsaid (fun h => absurd h hstar) (ih hread)

theorem readKeyword_cons {i : Item} (h : i.first.isWhitespace = false) (items : List Item) :
    readKeyword (i :: items) = match i.first with
      | .ident name => expectEnd Item.first items >>= fun _ => .ok (lower name)
      | t => .error (.unexpected t) := by
  rw [readKeyword, next, skipSpace_of_not_blank h]
  rfl

theorem says_readKeyword (h : Holds cs vs) {word : String}
    (hread : readKeyword (Item.ofValues vs) = .ok word) :
    ∃ said, word.toList = said.map Char.toLower ∧ Says False cs [said] := by
  induction h with
  | nil | close => cases hread
  | @bracket cs rest t v vs hscan ht hne hv =>
    have hblank : (Item.ofValue v).first.isWhitespace = false :=
      isWhitespace_of_isBracket (by rwa [Item.first_ofValue, hv])
    rw [Item.ofValues, readKeyword_cons hblank, Item.first_ofValue, hv] at hread
    split at hread
    · cases ht
    · cases hread
  | @token cs rest t vs hscan ht h ih =>
    rcases value?_cases t with ⟨text, rfl⟩ | hvalue
    · obtain ⟨said, hsaid, hspoken⟩ := ih hread
      exact ⟨said, hsaid, .token hscan rfl nofun hspoken⟩
    rw [hvalue] at hread
    change readKeyword (.token t :: Item.ofValues vs) = .ok word at hread
    rcases hblank : t.isWhitespace with _ | _
    · rw [readKeyword_cons (i := .token t) hblank] at hread
      split at hread
      · rename_i name heq
        obtain rfl : t = .ident name := heq
        obtain ⟨_, hend, hlower⟩ := bind_eq_ok.mp hread
        obtain rfl := Except.ok.inj hlower
        refine ⟨name.toList ++ [], by rw [List.append_nil, toList_lower], ?_⟩
        exact .token hscan rfl nofun (says_expectEnd h hend)
      · cases hread
    · rw [readKeyword, next, skipSpace_blank (i := .token t) hblank] at hread
      obtain ⟨hsaid, hstar⟩ := said?_of_isWhitespace hblank
      obtain ⟨said, hword, hspoken⟩ := ih hread
      exact ⟨said, hword, .token hscan hsaid (fun h => absurd h hstar) hspoken⟩

/-! ### What is kept as words -/

/-- Words that may be read after `name` and a bracket. -/
structure Worded (name : String) (words : List String) : Prop where
  nul : ∀ word ∈ words, '\x00' ∉ word.toList
  kind : name = "lang" ∧ words ≠ [] ∨
    (name = "dir" ∨ name = "state") ∧ ∃ word, words = [word] ∧ IsLowerName word

theorem nul_notMem_readRange (h : ∀ i ∈ items, i.Sound) {text : String}
    (hread : readRange items = .ok text) : '\x00' ∉ text.toList := by
  induction items generalizing text with
  | nil =>
    cases hread
    exact List.not_mem_nil
  | cons i items ih =>
    obtain ⟨hi, hitems⟩ := List.forall_mem_cons.mp h
    obtain ⟨said, text', hsaid, htext, hrest⟩ := exists_readRange hread
    rw [htext, List.mem_append, not_or]
    exact ⟨nul_notMem_said hi.first hsaid, ih hitems hrest⟩

theorem isLowerName_readKeyword (h : ∀ i ∈ items, i.Sound) {word : String}
    (hread : readKeyword items = .ok word) : IsLowerName word := by
  obtain ⟨⟨item, rest⟩, hnext, hread⟩ := bind_eq_ok.mp hread
  have hfirst := (sound_next h hnext).1.first
  simp only at hread
  split at hread
  · rename_i heq
    obtain ⟨_, -, hlower⟩ := bind_eq_ok.mp hread
    obtain rfl := pure_eq_ok.mp hlower
    rw [heq] at hfirst
    exact isLowerName_lower hfirst
  · cases hread

theorem worded_mapM (h : ∀ i ∈ items, i.Sound) {words : List String}
    (hread : (splitCommas items).mapM readRange = .ok words) : Worded "lang" words := by
  have hall := mapM_eq_ok.mp hread
  refine ⟨fun word hword => ?_, .inl ⟨rfl, ?_⟩⟩
  · obtain ⟨group, hgroup, hread⟩ := forall₂_exists_left hall word hword
    exact nul_notMem_readRange (fun i hi => h i ((infix_of_splitCommas hgroup).subset hi)) hread
  · rintro rfl
    exact splitCommas_ne_nil items (List.forall₂_nil_right_iff.mp hall)

/-- An argument that was read after `name`, if it is kept as words. -/
def Argument.Worded (name : String) : Argument → Prop
  | .words texts => Selector.Worded name texts
  | _ => True

theorem yields_worded (h : ∀ i ∈ items, i.Sound) (name source : String) :
    Yields (readArgument name items source) (Argument.Worded name) := by
  have hlist : ∀ forgiving, Yields (Argument.selectors <$> readList forgiving items)
      (Argument.Worded name) := fun forgiving => Yields.map fun _ _ _ _ => trivial
  have hnth : ∀ allowOf, Yields (readNth allowOf items) (Argument.Worded name) := by
    intro allowOf
    refine (yields_lift _).bind fun ⟨⟨a, b⟩, rest⟩ _ => ?_
    simp only
    split
    · exact Yields.bind (P := fun _ => True) (fun _ _ _ _ => trivial) fun _ _ => .pure trivial
    · exact (yields_lift _).bind fun _ _ => .pure trivial
  unfold readArgument
  split
  · exact hlist true
  split
  · exact hlist false
  split
  · exact hnth true
  split
  · exact hnth false
  split
  · rename_i hname
    obtain rfl := beq_iff_eq.mp hname
    rw [map_eq_pure_bind]
    exact (yields_lift _).bind fun words hread => .pure (worded_mapM h hread)
  split
  · rename_i hname
    rw [map_eq_pure_bind]
    refine (yields_lift _).bind fun word hread => .pure ?_
    have hword := isLowerName_readKeyword h hread
    refine ⟨List.forall_mem_singleton.mpr hword.1.2, .inr ⟨?_, word, rfl, hword⟩⟩
    simpa using hname
  · exact .pure trivial

def Component.Worded : Component → Prop
  | .pseudoClass name (some a) => a.Worded name
  | _ => True

/-- What is known of the words that the item reads. -/
def Item.Worded : Item → Prop
  | .function name argument _ => Yields argument (Argument.Worded (lower name))
  | _ => True

theorem worded_ofValues (h : ∀ v ∈ vs, v.Sound) : ∀ i ∈ Item.ofValues vs, i.Worded := by
  intro i hi
  rw [Item.ofValues_eq_map] at hi
  obtain ⟨v, hv, rfl⟩ := List.mem_map.mp hi
  cases h v hv with
  | token => trivial
  | block ho hc =>
    unfold Item.ofValue
    split
    · trivial
    · exact yields_worded (sound_ofValues hc) _ _
    · trivial

theorem Component.MadeOf.worded {c : Component} {taken : List Item} (h : c.MadeOf taken)
    (hitems : ∀ i ∈ taken, i.Worded) : c.Worded := by
  cases h with
  | functional name source hrun =>
    exact hitems _ (List.mem_cons_of_mem _ (List.mem_singleton.mpr rfl)) _ _ _ hrun
  | _ => trivial

theorem Stands.sound {branch : List Value} (h : Stands branch vs) (hvs : ∀ v ∈ vs, v.Sound) :
    ∀ v ∈ branch, v.Sound := by
  induction h with
  | here h => exact fun v hv => hvs v (h.subset hv)
  | inside hb _ ih =>
    cases hvs _ hb with
    | block _ hc => exact ih hc

/-- The words in a text that is one pseudo-class. -/
theorem worded_of_parse {text : String} {list : SelectorList} {words : List String}
    (h : SelectorList.parse text = .ok list)
    (hl : list.selectors = [.mk [.pseudoClass name (some (.words words))]]) : Worded name words := by
  have hself : list ∈ list.allLists := List.mem_cons_self
  obtain ⟨branch, hstands, n, m, hrun⟩ := SelectorList.readIn_of_parse h list hself _
    (by rw [hl]; exact List.mem_singleton.mpr rfl)
  have hworded := worded_ofValues (hstands.sound (sound_values text))
  have hcomponents := run_readComponents_of_readComplex hrun
  exact forall_readComponents (fun _ => trivial) (fun _ _ hc => hc.worded) (Nat.le_refl _)
    hcomponents hworded (by simp) _ (List.mem_singleton.mpr rfl)

/-! ### One pseudo-class -/

/-- The values of a text that begins as one pseudo-class with a bracket. -/
theorem exists_values_of_call {text : String} (hname : IsName name)
    (hidentifier : identifier name = name) (hurl : eqFold name "url" = false)
    (htext : text.toList = ':' :: (name.toList ++ '(' :: cs)) :
    ∃ vs source after,
      values text = .token .colon :: .block (.function name) vs source :: after ∧ Holds cs vs := by
  have hcolon : Token.scan? ([':'] ++ (name.toList ++ '(' :: cs)) =
      some (.colon, name.toList ++ '(' :: cs) := rfl
  have hfunction : Token.scan? (name.toList ++ ['('] ++ cs) = some (.function name, cs) := by
    have hscan := scan?_function hname hurl cs
    rw [hidentifier] at hscan
    rwa [List.append_assoc]
  have hlex : lex text.toList =
      ⟨.colon, [':']⟩ :: ⟨.function name, name.toList ++ ['(']⟩ :: lex cs := by
    rw [htext, ← List.singleton_append, lex_of_scan? hcolon, ← lex_of_scan? hfunction,
      List.append_assoc]
    rfl
  obtain ⟨vs, source, after, hclose, hholds⟩ := holds_contents [.token .colon]
    ⟨.function name, .closeParen, name.toList ++ ['('], [], []⟩ rfl cs
  refine ⟨vs, source, after, ?_, hholds⟩
  rw [values, hlex]
  exact hclose

/-- The first component of a branch stays the first. -/
theorem prefix_of_readComponents {fuel n m : Nat} {space : Bool} {components out : List Component}
    (hlength : items.length ≤ fuel)
    (h : (readComponents fuel space components items).run.run n = (.ok out, m)) :
    components.reverse <+: out := by
  refine readComponents_induct (motive := fun _ components _ => components.reverse <+: out)
    ?_ ?_ ?_ ?_ hlength h
  · rintro _ components rfl -
    exact List.prefix_rfl
  · exact fun _ _ _ _ _ ih => ih
  · intro _ components _ _ c _ ih
    rw [List.reverse_cons] at ih
    exact (List.prefix_append _ _).trans ih
  · intro space components _ c _ _ ih
    refine List.IsPrefix.trans ?_ ih
    rw [List.reverse_cons, joined]
    split
    · rw [List.reverse_cons, List.append_assoc]
      exact List.prefix_append _ _
    · exact List.prefix_append _ _

/-- The first branch of a list that was read, and its number. -/
theorem exists_run_of_readList {list : SelectorList} {m : Nat}
    (h : (readList false items).run.run 0 = (.ok list, m)) {group : List Item}
    {groups : List (List Item)} (hsplit : splitCommas items = group :: groups) :
    list.id = ⟨0⟩ ∧ ∃ within m', list.selectors.head? = some within ∧
      (readComplex group).run.run 1 = (.ok within, m') := by
  obtain ⟨id, n, hid, h⟩ := exists_of_run_bind h
  obtain ⟨rfl, rfl⟩ : (⟨0⟩ : ListId) = id ∧ 1 = n := by
    obtain ⟨hok, hn⟩ := Prod.mk.inj hid
    exact ⟨Except.ok.inj hok, hn⟩
  simp only [Bool.false_eq_true, if_false, hsplit, List.map_cons] at h
  obtain ⟨selectors, n, hselectors, h⟩ := exists_of_run_bind h
  obtain ⟨hlist, -⟩ := Prod.mk.inj h
  obtain rfl := Except.ok.inj hlist
  rw [List.mapM_cons] at hselectors
  obtain ⟨within, m', hwithin, hselectors⟩ := exists_of_run_bind hselectors
  obtain ⟨later, _, -, hselectors⟩ := exists_of_run_bind hselectors
  obtain ⟨hcons, -⟩ := Prod.mk.inj hselectors
  obtain rfl := Except.ok.inj hcons
  exact ⟨rfl, within, m', rfl, hwithin⟩

/-- A text that begins as one pseudo-class, and comes to one pseudo-class, has its argument read. -/
theorem exists_run_of_call {called source : String} {argument : Read Argument} {a : Argument}
    {list : SelectorList} {m : Nat} {rest : List Item}
    (h : (readList false (.token .colon :: .function called argument source :: rest)).run.run 0 =
      (.ok list, m)) (hl : list.selectors = [.mk [.pseudoClass name (some a)]]) :
    ∃ m', argument.run.run 1 = (.ok a, m') := by
  obtain ⟨group, groups, hsplit⟩ : ∃ group groups,
      splitCommas (.token .colon :: .function called argument source :: rest) =
        (.token .colon :: .function called argument source :: group) :: groups := by
    obtain ⟨group, groups, hrest, hfunction⟩ :=
      splitCommas_cons (i := .function called argument source) rfl rest
    obtain ⟨group', groups', hrest', hcolon⟩ :=
      splitCommas_cons (i := .token .colon) rfl (.function called argument source :: rest)
    rw [hfunction] at hrest'
    obtain ⟨rfl, rfl⟩ := List.cons.inj hrest'
    exact ⟨group, _, hcolon⟩
  obtain ⟨-, within, m', hhead, hrun⟩ := exists_run_of_readList h hsplit
  rw [hl] at hhead
  obtain rfl := Option.some.inj hhead
  have hcolon : combinator? (.token .colon) = none := rfl
  have hcomponents := run_readComponents_of_readComplex hrun
  rw [List.length_cons, readComponents] at hcomponents
  simp only [Item.first, Token.isWhitespace, Bool.false_eq_true, if_false, hcolon, readSimple,
    readPseudo] at hcomponents
  obtain ⟨⟨c, after⟩, n, hsimple, hcomponents⟩ := exists_of_run_bind hcomponents
  obtain ⟨a', n', hargument, hsimple⟩ := exists_of_run_bind hsimple
  obtain ⟨hpair, -⟩ := Prod.mk.inj hsimple
  obtain ⟨rfl, rfl⟩ := Prod.mk.inj (Except.ok.inj hpair)
  obtain ⟨later, hlater⟩ := prefix_of_readComponents (by simp) hcomponents
  obtain ⟨⟨-, rfl⟩, -⟩ : (lower called = name ∧ a' = a) ∧ later = [] := by
    simpa [joined, endsCompound, Complex.components] using hlater
  exact ⟨n', hargument⟩

end DomQuery.Selector
