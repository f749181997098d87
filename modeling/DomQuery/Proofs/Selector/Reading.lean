import DomQuery.Proofs.Selector.Numbering
import DomQuery.Proofs.Selector.Sound

/-!
# What is read

The number with which reading begins makes no difference but in the numbers of the lists
that are read. And what is read is sound, as long as the tokens are. Both go along the
same steps, so they are followed through the readers together.

* `ReadsAlike`: two readers come to results that are related, or to the same error.
* `readsAlike_readList`: what that says of one list.
* `SelectorList.sound_of_parse`: a list that was read is sound.
-/

namespace DomQuery.Selector

open DomQuery.Css DomQuery.Text

/-- The component without the numbers of its lists. -/
def Component.unnumbered (c : Component) : Component :=
  c.renumber fun _ => ⟨0⟩

def Complex.unnumbered (within : Complex) : Complex :=
  within.renumber fun _ => ⟨0⟩

/-! ### Readers -/

section Readers

variable {α β γ δ : Type}

/-- The results are related, or both are the same error. -/
def Alike (R : α → β → Prop) : Except ReadError α → Except ReadError β → Prop
  | .ok a, .ok b => R a b
  | .error e, .error e' => e = e'
  | _, _ => False

/-- Whatever numbers they begin with, the readers come to the same, up to `R`. -/
def ReadsAlike (R : α → β → Prop) (x : Read α) (y : Read β) : Prop :=
  ∀ n m, Alike R (x.run.run n).1 (y.run.run m).1

namespace ReadsAlike

variable {R : α → β → Prop} {S : γ → δ → Prop} {x : Read α} {y : Read β}

protected theorem pure {a : α} {b : β} (h : R a b) : ReadsAlike R (pure a) (pure b) :=
  fun _ _ => h

protected theorem throw (e : ReadError) : ReadsAlike R (throw e) (throw e) :=
  fun _ _ => rfl

protected theorem bind {f : α → Read γ} {g : β → Read δ} (h : ReadsAlike R x y)
    (hf : ∀ a b, R a b → ReadsAlike S (f a) (g b)) : ReadsAlike S (x >>= f) (y >>= g) := by
  intro n m
  have hxy := h n m
  rw [run_bind, run_bind]
  rcases hx : x.run.run n with ⟨e | a, n'⟩ <;> rcases hy : y.run.run m with ⟨e' | b, m'⟩ <;>
    rw [hx, hy] at hxy
  · exact hxy
  · exact hxy.elim
  · exact hxy.elim
  · exact hf a b hxy n' m'

protected theorem map {f : α → γ} {g : β → δ} (h : ReadsAlike R x y)
    (hf : ∀ a b, R a b → S (f a) (g b)) : ReadsAlike S (f <$> x) (g <$> y) := by
  rw [map_eq_pure_bind, map_eq_pure_bind]
  exact h.bind fun a b hab => .pure (hf a b hab)

/-- What fails in one of them is left out in both. -/
protected theorem attempt (h : ReadsAlike R x y) :
    ReadsAlike (Option.Rel R) (attempt x) (attempt y) := by
  intro n m
  have hxy := h n m
  rw [DomQuery.attempt, DomQuery.attempt, run_tryCatch, run_tryCatch, map_eq_pure_bind,
    map_eq_pure_bind, run_bind, run_bind]
  rcases hx : x.run.run n with ⟨e | a, n'⟩ <;> rcases hy : y.run.run m with ⟨e' | b, m'⟩ <;>
    rw [hx, hy] at hxy
  · exact .none
  · exact hxy.elim
  · exact hxy.elim
  · exact .some hxy

protected theorem mapM {ι κ : Type} {f : ι → Read α} {g : κ → Read β} {is : List ι} {ks : List κ}
    (h : List.Forall₂ (fun i k => ReadsAlike R (f i) (g k)) is ks) :
    ReadsAlike (fun as bs => List.Forall₂ R as bs ∧ as.length = is.length) (is.mapM f)
      (ks.mapM g) := by
  induction h with
  | nil => exact .pure ⟨.nil, rfl⟩
  | cons hik _ ih =>
    rw [List.mapM_cons, List.mapM_cons]
    exact hik.bind fun a b hab => ih.bind fun as bs habs =>
      .pure ⟨.cons hab habs.1, congrArg (· + 1) habs.2⟩

end ReadsAlike

theorem readsAlike_freshId : ReadsAlike (fun _ _ => True) freshId freshId :=
  fun _ _ => trivial

theorem readsAlike_lift {result : Except ReadError α} :
    ReadsAlike (fun a b => a = b ∧ result = .ok a) (lift result) (lift result) := by
  rcases result with e | a
  · exact .throw e
  · exact .pure ⟨rfl, rfl⟩

end Readers

/-! ### Pieces of a selector -/

/-- The same component but for the numbers of its lists, and sound. -/
def Component.Alike (c d : Component) : Prop :=
  c.unnumbered = d.unnumbered ∧ c.Sound

def Complex.Alike (within within' : Complex) : Prop :=
  within.unnumbered = within'.unnumbered ∧ within.components ≠ [] ∧
    Spaced within.components.reverse ∧ ∀ c ∈ within.components, c.Sound

def SelectorList.Alike (list list' : SelectorList) : Prop :=
  list.unnumbered = list'.unnumbered ∧ list.Sound

def Argument.Alike (name : String) (a b : Argument) : Prop :=
  renumber? (fun _ => ⟨0⟩) (some a) = renumber? (fun _ => ⟨0⟩) (some b) ∧ a.Sound name

/-- Components, last first, that are the same but for the numbers of lists, and sound. -/
def AlikeSoFar (components components' : List Component) : Prop :=
  components.map Component.unnumbered = components'.map Component.unnumbered ∧
    Spaced components ∧ ∀ c ∈ components, c.Sound

theorem Component.Fits.sound {c : Component} (h : c.Fits) (hc : c.lists = []) : c.Sound :=
  ⟨h, by simp [hc]⟩

/-- What is known of an item that sound values stand for. -/
def Item.Sound : Item → Prop
  | .token t => t.Sound
  | .bracketed contents => ∀ a, contents = .ok a → a.Sound
  | .function name argument _ =>
    IsName name ∧ ReadsAlike (Argument.Alike (lower name)) argument argument
  | .block opener => opener.Sound

theorem Item.Sound.first {i : Item} (h : i.Sound) : i.first.Sound := by
  cases i with
  | token | block => exact h
  | bracketed => trivial
  | function => exact h.1

section Attribute

variable {items rest : List Item}

theorem sound_next {item : Item} (h : ∀ i ∈ items, i.Sound)
    (hn : next Item.first items = .ok (item, rest)) : item.Sound ∧ ∀ i ∈ rest, i.Sound := by
  unfold next at hn
  split at hn
  · rename_i hs
    obtain ⟨rfl, rfl⟩ := Prod.mk.inj (Except.ok.inj hn)
    have hsub : ∀ i ∈ skipSpace Item.first items, i.Sound :=
      fun i hi => h i ((List.dropWhile_sublist _).subset hi)
    rw [hs] at hsub
    exact List.forall_mem_cons.mp hsub
  · cases hn

theorem sound_barredName? {name : String} (h : ∀ i ∈ items, i.Sound)
    (hn : barredName? items = some (name, rest)) : IsName name ∧ ∀ i ∈ rest, i.Sound := by
  unfold barredName? at hn
  split at hn
  · obtain ⟨rfl, rfl⟩ := Prod.mk.inj (Option.some.inj hn)
    exact List.forall_mem_cons.mp h
  · cases hn

theorem sound_expectBarredName {name : String} (h : ∀ i ∈ items, i.Sound)
    (hn : expectBarredName items = .ok (name, rest)) : IsName name ∧ ∀ i ∈ rest, i.Sound := by
  unfold expectBarredName at hn
  split at hn
  · rename_i hb
    obtain rfl := Except.ok.inj hn
    exact sound_barredName? h hb
  · cases hn

theorem sound_readAttributeName {qualifier : Option Qualifier} {name : String}
    (h : ∀ i ∈ items, i.Sound) (hn : readAttributeName items = .ok ((qualifier, name), rest)) :
    (∀ q ∈ qualifier, q.Sound) ∧ IsName name ∧ ∀ i ∈ rest, i.Sound := by
  obtain ⟨⟨item, after⟩, hnext, hn⟩ := bind_eq_ok.mp hn
  obtain ⟨hitem, hafter⟩ := sound_next h hnext
  simp only at hn
  split at hn
  · split at hn
    · rename_i tail
      have htail : ∀ i ∈ tail, i.Sound := (List.forall_mem_cons.mp hafter).2
      split at hn
      · rename_i hb
        obtain ⟨heq, rfl⟩ := Prod.mk.inj (pure_eq_ok.mp hn)
        obtain ⟨rfl, rfl⟩ := Prod.mk.inj heq
        obtain ⟨hname, hrest⟩ := sound_barredName? htail hb
        exact ⟨forall_mem_some hitem, hname, hrest⟩
      · obtain ⟨heq, rfl⟩ := Prod.mk.inj (pure_eq_ok.mp hn)
        obtain ⟨rfl, rfl⟩ := Prod.mk.inj heq
        exact ⟨by simp, hitem, hafter⟩
    · obtain ⟨heq, rfl⟩ := Prod.mk.inj (pure_eq_ok.mp hn)
      obtain ⟨rfl, rfl⟩ := Prod.mk.inj heq
      exact ⟨by simp, hitem, hafter⟩
  · split at hn
    · rename_i tail
      have htail : ∀ i ∈ tail, i.Sound := (List.forall_mem_cons.mp hafter).2
      obtain ⟨⟨found, after'⟩, hb, hn⟩ := bind_eq_ok.mp hn
      obtain ⟨heq, rfl⟩ := Prod.mk.inj (pure_eq_ok.mp hn)
      obtain ⟨rfl, rfl⟩ := Prod.mk.inj heq
      obtain ⟨hname, hrest⟩ := sound_expectBarredName htail hb
      exact ⟨by simp [Qualifier.Sound], hname, hrest⟩
    · cases hn
  · obtain ⟨⟨found, after'⟩, hb, hn⟩ := bind_eq_ok.mp hn
    obtain ⟨heq, rfl⟩ := Prod.mk.inj (pure_eq_ok.mp hn)
    obtain ⟨rfl, rfl⟩ := Prod.mk.inj heq
    obtain ⟨hname, hrest⟩ := sound_expectBarredName hafter hb
    exact ⟨by simp [Qualifier.Sound], hname, hrest⟩
  · cases hn

theorem sound_readFlag {flag : Option String} (h : ∀ i ∈ items, i.Sound)
    (hf : readFlag items = .ok (flag, rest)) : ∀ name ∈ flag, IsName name := by
  unfold readFlag at hf
  split at hf
  · obtain ⟨rfl, -⟩ := Prod.mk.inj (Except.ok.inj hf)
    simp
  · rename_i item after hn
    have hfirst := (sound_next h hn).1.first
    split at hf
    · rename_i name hi
      obtain ⟨rfl, -⟩ := Prod.mk.inj (Except.ok.inj hf)
      rw [hi] at hfirst
      exact forall_mem_some hfirst
    · cases hf

theorem sound_readAttribute {a : AttributeSelector} (h : ∀ i ∈ items, i.Sound)
    (ha : readAttribute items = .ok a) : a.Sound := by
  obtain ⟨⟨⟨qualifier, name⟩, after⟩, hname, ha⟩ := bind_eq_ok.mp ha
  obtain ⟨hqualifier, hname, hafter⟩ := sound_readAttributeName h hname
  simp only at ha
  split at ha
  · obtain rfl := pure_eq_ok.mp ha
    exact ⟨hqualifier, hname, by simp, by simp⟩
  · rename_i hoperator
    have hrest := (sound_next hafter hoperator).2
    split at ha
    · cases ha
    · rename_i operator _
      obtain ⟨⟨item, after'⟩, hvalue, ha⟩ := bind_eq_ok.mp ha
      obtain ⟨hitem, hafter'⟩ := sound_next hrest hvalue
      have hfirst := hitem.first
      have hcomparison : ∀ {value : String}, '\x00' ∉ value.toList →
          (readFlag after' >>= fun read => expectEnd Item.first read.2 >>= fun _ =>
            pure ⟨qualifier, name, some ⟨operator, value, read.1⟩⟩ : Except ReadError AttributeSelector) =
              .ok a → a.Sound := by
        intro value hvalue ha
        obtain ⟨⟨flag, rest⟩, hflag, ha⟩ := bind_eq_ok.mp ha
        obtain ⟨_, -, ha⟩ := bind_eq_ok.mp ha
        obtain rfl := pure_eq_ok.mp ha
        refine ⟨hqualifier, hname, fun c hc => ?_, fun c hc => ?_⟩
        · obtain rfl := Option.some.inj hc
          exact hvalue
        · obtain rfl := Option.some.inj hc
          exact sound_readFlag hafter' hflag
      simp only at ha
      split at ha
      · rename_i hi
        rw [hi] at hfirst
        exact hcomparison hfirst.2 ha
      · rename_i hi
        rw [hi] at hfirst
        exact hcomparison hfirst ha
      · cases ha

end Attribute

/-! ### Components -/

section Components

variable {items rest : List Item}

theorem isName_star : IsName "*" :=
  ⟨by decide, by decide⟩

theorem sound_barredType? {q : Qualifier} {c : Component} (hq : q.Sound)
    (h : ∀ i ∈ items, i.Sound) (hc : barredType? q items = some (c, rest)) : c.Fits := by
  unfold barredType? at hc
  split at hc
  · obtain ⟨rfl, -⟩ := Prod.mk.inj (Option.some.inj hc)
    have hname := (List.forall_mem_cons.mp h).1
    exact ⟨by simpa using hq, hname⟩
  · obtain ⟨rfl, -⟩ := Prod.mk.inj (Option.some.inj hc)
    exact ⟨by simpa using hq, isName_star⟩
  · cases hc

theorem sound_readType {name : Option String} (hname : ∀ p ∈ name, IsName p)
    (h : ∀ i ∈ items, i.Sound) : (readType name items).1.Fits := by
  have hplain : (Component.type ⟨none, name.getD "*"⟩).Fits := by
    refine ⟨by simp, ?_⟩
    rcases name with _ | name
    · exact isName_star
    · exact hname name rfl
  unfold readType
  split
  · rename_i tail
    have htail : ∀ i ∈ tail, i.Sound := (List.forall_mem_cons.mp h).2
    have hbarred : ∀ {q : Qualifier}, q.Sound →
        ((barredType? q tail).getD (.type ⟨none, name.getD "*"⟩, .token (.delim '|') :: tail)).1.Fits := by
      intro q hq
      rcases hb : barredType? q tail with _ | ⟨c, rest⟩
      · exact hplain
      · exact sound_barredType? hq htail hb
    rcases name with _ | name
    · exact hbarred (q := .any) trivial
    · exact hbarred (q := .named name) (hname name rfl)
  · exact hplain

/-- Two components with the items after them, which are among the items `before`. -/
def AlikeUpTo (before : List Item) (r r' : Component × List Item) : Prop :=
  r.1.Alike r'.1 ∧ (∀ c, r.1 ≠ .combinator c) ∧ r.2 = r'.2 ∧ r.2 <:+ before

theorem alikeUpTo_of_fits {before : List Item} {r : Component × List Item} (h : r.1.Fits)
    (hlists : r.1.lists = []) (hne : ∀ c, r.1 ≠ .combinator c) (hsub : r.2 <:+ before) :
    AlikeUpTo before r r :=
  ⟨⟨rfl, h.sound hlists⟩, hne, rfl, hsub⟩

theorem barredType?_ne {q : Qualifier} {c : Component} (h : barredType? q items = some (c, rest))
    (d : Combinator) : c ≠ .combinator d := by
  rintro rfl
  unfold barredType? at h
  split at h
  all_goals cases h

theorem readType_ne (name : Option String) (items : List Item) (d : Combinator) :
    (readType name items).1 ≠ .combinator d := by
  have hbarred : ∀ (q : Qualifier) (plain : TypeSelector) (tail rest : List Item),
      ((barredType? q tail).getD (.type plain, rest)).1 ≠ .combinator d := by
    intro q plain tail rest
    rcases h : barredType? q tail with _ | ⟨c, after⟩
    · exact nofun
    · exact barredType?_ne h d
  unfold readType
  split
  · exact hbarred _ _ _ _
  · exact nofun

theorem barredType?_suffix {q : Qualifier} {c : Component}
    (h : barredType? q items = some (c, rest)) : rest <:+ items := by
  unfold barredType? at h
  split at h
  · obtain ⟨-, rfl⟩ := Prod.mk.inj (Option.some.inj h)
    exact List.suffix_cons _ _
  · obtain ⟨-, rfl⟩ := Prod.mk.inj (Option.some.inj h)
    exact List.suffix_cons _ _
  · cases h

theorem readType_suffix (name : Option String) (items : List Item) :
    (readType name items).2 <:+ items := by
  have hbarred : ∀ (q : Qualifier) (plain : Component) (tail : List Item) (bar : Item),
      ((barredType? q tail).getD (plain, bar :: tail)).2 <:+ bar :: tail := by
    intro q plain tail bar
    rcases h : barredType? q tail with _ | ⟨c, after⟩
    · exact List.suffix_rfl
    · exact (barredType?_suffix h).trans (List.suffix_cons _ _)
  unfold readType
  split
  · exact hbarred _ _ _ _
  · exact List.suffix_rfl

theorem readsAlike_readPseudo (h : ∀ i ∈ items, i.Sound) :
    ReadsAlike (AlikeUpTo items) (readPseudo items) (readPseudo items) := by
  have hplain : ∀ {c : Component} {rest : List Item}, c.Fits → c.lists = [] →
      (∀ d, c ≠ .combinator d) → rest <:+ items →
      ReadsAlike (AlikeUpTo items) (pure (c, rest)) (pure (c, rest)) :=
    fun hc hlists hne hsub => .pure (alikeUpTo_of_fits hc hlists hne hsub)
  unfold readPseudo
  split
  · rename_i name rest
    have hname : IsName name := h (.token (.ident name)) (by simp)
    exact hplain (isLowerName_lower hname) rfl nofun (List.suffix_append [_, _] rest)
  · rename_i name argument source rest
    have hname : IsName name := (h (.function name argument source) (by simp)).1
    exact hplain (isLowerName_lower hname) rfl nofun (List.suffix_append [_, _] rest)
  · exact .throw _
  · rename_i name rest
    have hname : IsName name := h (.token (.ident name)) (by simp)
    exact hplain ⟨isLowerName_lower hname, by simp⟩ rfl nofun (List.suffix_cons _ _)
  · rename_i name argument source rest
    obtain ⟨hname, hargument⟩ : IsName name ∧
        ReadsAlike (Argument.Alike (lower name)) argument argument :=
      h (.function name argument source) (by simp)
    refine hargument.bind fun a b ⟨hab, ha⟩ => .pure ⟨⟨?_, ?_, ha.lists⟩, nofun, rfl,
      List.suffix_cons _ _⟩
    · exact congrArg (Component.pseudoClass (lower name)) hab
    · exact ⟨isLowerName_lower hname, forall_mem_some ha.fits⟩
  · exact .throw _

theorem readsAlike_readSimple {item : Item} (hitem : item.Sound) (h : ∀ i ∈ rest, i.Sound) :
    ReadsAlike (AlikeUpTo rest) (readSimple item rest) (readSimple item rest) := by
  have hplain : ∀ {r : Component × List Item}, r.1.Fits → r.1.lists = [] →
      (∀ d, r.1 ≠ .combinator d) → r.2 <:+ rest →
      ReadsAlike (AlikeUpTo rest) (pure r) (pure r) :=
    fun hc hlists hne hsub => .pure (alikeUpTo_of_fits hc hlists hne hsub)
  unfold readSimple
  split
  · exact hplain (sound_readType (forall_mem_some hitem) h) (readType_inv _ _).1
      (readType_ne _ _) (readType_suffix _ _)
  · exact hplain (sound_readType (by simp) h) (readType_inv _ _).1 (readType_ne _ _)
      (readType_suffix _ _)
  · split
    · rename_i hb
      exact hplain (sound_barredType? (q := .none) trivial h hb) (barredType?_inv hb).1
        (barredType?_ne hb) (barredType?_suffix hb)
    · exact .throw _
  · exact hplain hitem rfl nofun List.suffix_rfl
  · split
    · exact hplain (List.forall_mem_cons.mp h).1 rfl nofun (List.suffix_cons _ _)
    · exact .throw _
  · split
    · exact hplain (hitem _ rfl) rfl nofun List.suffix_rfl
    · exact .throw _
  · exact readsAlike_readPseudo h
  · exact .throw _

/-! ### Branches -/

theorem Component.combinator_of_unnumbered {c : Component} {d : Combinator}
    (h : c.unnumbered = .combinator d) : c = .combinator d := by
  cases c <;> cases h
  rfl

theorem endsCompound_unnumbered (components : List Component) :
    endsCompound (components.map Component.unnumbered) = endsCompound components := by
  rcases components with _ | ⟨c, components⟩
  · rfl
  · cases c <;> rfl

namespace AlikeSoFar

variable {components components' : List Component}

theorem nil : AlikeSoFar [] [] :=
  ⟨rfl, .nil, by simp⟩

theorem combinator (h : AlikeSoFar components components') {c : Combinator} (hc : c ≠ .descendant) :
    AlikeSoFar (.combinator c :: components) (.combinator c :: components') :=
  ⟨congrArg (Component.combinator c :: ·) h.1, .combinator hc h.2.1,
    List.forall_mem_cons.mpr ⟨⟨trivial, by simp [Component.lists]⟩, h.2.2⟩⟩

theorem simple (h : AlikeSoFar components components') {s s' : Component} (hs : s.Alike s')
    (hne : ∀ c, s ≠ .combinator c) (space : Bool) :
    AlikeSoFar (s :: joined space components) (s' :: joined space components') := by
  have hends : endsCompound components = endsCompound components' := by
    rw [← endsCompound_unnumbered, h.1, endsCompound_unnumbered]
  refine ⟨?_, .simple hne space h.2.1, List.forall_mem_cons.mpr ⟨hs.2, ?_⟩⟩
  · rw [List.map_cons, List.map_cons, hs.1]
    unfold joined
    rw [hends]
    split
    · rw [List.map_cons, List.map_cons, h.1]
    · rw [h.1]
  · unfold joined
    split
    · exact List.forall_mem_cons.mpr ⟨⟨trivial, by simp [Component.lists]⟩, h.2.2⟩
    · exact h.2.2

end AlikeSoFar

/-- Components in order that are the same but for the numbers of lists, and sound. -/
def AlikeInOrder (components components' : List Component) : Prop :=
  components ≠ [] ∧ AlikeSoFar components.reverse components'.reverse

theorem combinator?_ne {item : Item} {c : Combinator} (h : combinator? item = some c) :
    c ≠ .descendant := by
  rintro rfl
  unfold combinator? at h
  split at h
  all_goals cases h

theorem readsAlike_reverse {components components' : List Component}
    (h : AlikeSoFar components components') (hne : components ≠ []) :
    ReadsAlike AlikeInOrder (pure components.reverse) (pure components'.reverse) := by
  refine .pure ⟨by simpa using hne, ?_⟩
  rwa [List.reverse_reverse, List.reverse_reverse]

theorem readsAlike_readComponents {fuel : Nat} {space : Bool} {components components' : List Component}
    {items : List Item} (hlength : items.length ≤ fuel) (h : ∀ i ∈ items, i.Sound)
    (hc : AlikeSoFar components components') :
    ReadsAlike AlikeInOrder (readComponents fuel space components items)
      (readComponents fuel space components' items) := by
  have hend : ∀ {fuel space components components'}, AlikeSoFar components components' →
      ReadsAlike AlikeInOrder (readComponents fuel space components [])
        (readComponents fuel space components' []) := by
    intro fuel space components components' hc
    rcases components with _ | ⟨c, components⟩
    · obtain rfl := List.map_eq_nil_iff.mp hc.1.symm
      rw [readComponents]
      exact .throw _
    · obtain ⟨c', components', rfl, -⟩ := List.map_eq_cons_iff.mp hc.1.symm
      rw [readComponents, readComponents]
      · exact readsAlike_reverse hc (List.cons_ne_nil _ _)
      all_goals rintro ⟨⟩
  induction fuel generalizing space components components' items with
  | zero =>
    obtain rfl := List.length_eq_zero_iff.mp (Nat.le_zero.mp hlength)
    exact hend hc
  | succ fuel ih =>
    rcases items with _ | ⟨item, rest⟩
    · exact hend hc
    obtain ⟨hitem, hrest⟩ := List.forall_mem_cons.mp h
    have hle : rest.length ≤ fuel := Nat.le_of_succ_le_succ hlength
    rw [readComponents, readComponents]
    split
    · exact ih hle hrest hc
    split
    · rename_i c hcombinator
      exact ih hle hrest (hc.combinator (combinator?_ne hcombinator))
    · refine (readsAlike_readSimple hitem hrest).bind ?_
      rintro ⟨s, after⟩ ⟨s', after'⟩ ⟨hs, hne, heq, hsuffix⟩
      obtain rfl : after = after' := heq
      exact ih (Nat.le_trans hsuffix.length_le hle) (fun i hi => hrest i (hsuffix.subset hi))
        (hc.simple hs hne space)

theorem readsAlike_readComplex {items : List Item} (h : ∀ i ∈ items, i.Sound) :
    ReadsAlike Complex.Alike (readComplex items) (readComplex items) := by
  refine (readsAlike_readComponents (Nat.le_refl _) h .nil).map ?_
  rintro components components' ⟨hne, hsame, hspaced, hsound⟩
  refine ⟨congrArg Complex.mk ?_, hne, hspaced, fun c hc => hsound c (List.mem_reverse.mpr hc)⟩
  rw [List.map_reverse, List.map_reverse] at hsame
  exact List.reverse_injective hsame

/-! ### Lists and arguments -/

theorem SelectorList.alike_mk {id id' : ListId} {selectors selectors' : List Complex}
    (h : List.Forall₂ Complex.Alike selectors selectors') :
    (SelectorList.mk id selectors).Alike (.mk id' selectors') := by
  constructor
  · rw [unnumbered, unnumbered, renumber_mk, renumber_mk]
    congr 1
    induction h with
    | nil => rfl
    | cons hab _ ih => exact congrArg₂ List.cons hab.1 ih
  · refine sound_of_selectors fun within hw => ?_
    obtain ⟨_, -, hab⟩ := forall₂_exists_left h.flip within hw
    exact hab.2

theorem forall₂_filterMap {α : Type} {R : α → α → Prop} {found found' : List (Option α)}
    (h : List.Forall₂ (Option.Rel R) found found') :
    List.Forall₂ R (found.filterMap fun a => a) (found'.filterMap fun a => a) := by
  induction h with
  | nil => exact .nil
  | cons hab _ ih =>
    rcases hab with hab | _
    · exact .cons hab ih
    · exact ih

theorem splitCommas_ne_nil (items : List Item) : splitCommas items ≠ [] := by
  unfold splitCommas
  split
  · exact List.cons_ne_nil _ _
  · split
    · exact List.cons_ne_nil _ _
    · split
      · exact List.cons_ne_nil _ _
      · exact List.cons_ne_nil _ _

theorem readsAlike_readList (forgiving : Bool) {items : List Item} (h : ∀ i ∈ items, i.Sound) :
    ReadsAlike (fun list list' => list.Alike list' ∧ (list.selectors = [] → forgiving = true))
      (readList forgiving items) (readList forgiving items) := by
  have hbranches : List.Forall₂ (ReadsAlike Complex.Alike) ((splitCommas items).map readComplex)
      ((splitCommas items).map readComplex) := by
    refine List.forall₂_same.mpr fun branch hb => ?_
    obtain ⟨group, hg, rfl⟩ := List.mem_map.mp hb
    exact readsAlike_readComplex fun i hi => h i ((infix_of_splitCommas hg).subset hi)
  refine readsAlike_freshId.bind fun id id' _ => ?_
  cases forgiving with
  | true =>
    refine (ReadsAlike.mapM (hbranches.imp fun _ _ h => h.attempt)).bind fun found found' hfound => ?_
    exact .pure ⟨SelectorList.alike_mk (forall₂_filterMap hfound.1), fun _ => rfl⟩
  | false =>
    refine (ReadsAlike.mapM hbranches).bind fun selectors selectors' hs => ?_
    refine .pure ⟨SelectorList.alike_mk hs.1, fun hnil => absurd ?_ (splitCommas_ne_nil items)⟩
    have hlength := hs.2
    rw [show selectors = [] from hnil, List.length_map] at hlength
    exact List.length_eq_zero_iff.mp hlength.symm

theorem readsAlike_readNth {name : String} {allowOf : Bool} {items : List Item}
    (h : ∀ i ∈ items, i.Sound)
    (hname : ∀ items source, readArgument name items source = readNth allowOf items) :
    ReadsAlike (Argument.Alike name) (readNth allowOf items) (readNth allowOf items) := by
  refine readsAlike_lift.bind ?_
  rintro ⟨⟨a, b⟩, rest⟩ _ ⟨rfl, hr⟩
  obtain ⟨ha, hb⟩ := readStep_inRange hr
  have hrest : ∀ i ∈ rest, i.Sound := fun i hi => h i ((readStep_suffix hr).subset hi)
  simp only
  split
  · rename_i tail ho
    obtain rfl : allowOf = true := by
      by_contra hn
      rw [if_neg hn] at ho
      cases ho
    have htail : ∀ i ∈ tail, i.Sound := fun i hi => hrest i ((afterOf?_suffix ho).subset hi)
    refine (readsAlike_readList false htail).bind fun list list' ⟨hlist, hne⟩ => .pure ⟨?_, ?_, ?_⟩
    · exact congrArg (fun list => some (Argument.nth a b (some list))) hlist.1
    · exact ⟨ha, hb, true, forall_mem_some ⟨rfl, fun hnil => nomatch hne hnil⟩, hname⟩
    · exact List.forall_mem_singleton.mpr hlist.2
  · exact readsAlike_lift.bind fun _ _ _ => .pure ⟨rfl, ⟨ha, hb, allowOf, by simp, hname⟩,
      by simp [Argument.lists]⟩

theorem readsAlike_readArgument {items : List Item} (h : ∀ i ∈ items, i.Sound) (name : String)
    (source : String) : ReadsAlike (Argument.Alike name) (readArgument name items source)
      (readArgument name items source) := by
  have hlist : ∀ forgiving,
      (∀ items source, readArgument name items source = .selectors <$> readList forgiving items) →
      ReadsAlike (Argument.Alike name) (readArgument name items source)
        (readArgument name items source) := by
    intro forgiving hname
    rw [hname]
    refine (readsAlike_readList forgiving h).map fun list list' ⟨hlist, hne⟩ => ⟨?_, ?_, ?_⟩
    · exact congrArg (fun list => some (Argument.selectors list)) hlist.1
    · exact ⟨forgiving, hne, hname⟩
    · exact List.forall_mem_singleton.mpr hlist.2
  have hnth : ∀ allowOf,
      (∀ items source, readArgument name items source = readNth allowOf items) →
      ReadsAlike (Argument.Alike name) (readArgument name items source)
        (readArgument name items source) := by
    intro allowOf hname
    rw [hname]
    exact readsAlike_readNth h hname
  have hwords : ∀ {α : Type} (f : α → List String) (result : Except ReadError α),
      ReadsAlike (Argument.Alike name) ((fun a => Argument.words (f a)) <$> lift result)
        ((fun a => Argument.words (f a)) <$> lift result) := by
    intro α f result
    exact readsAlike_lift.map fun a _ ⟨hab, _⟩ => hab ▸ ⟨rfl, trivial, by simp [Argument.lists]⟩
  by_cases hforgiving : (name == "is" || name == "where") = true
  · exact hlist true fun items source => by rw [readArgument, if_pos hforgiving]
  by_cases hstrict : (name == "not" || name == "has" || name == "host" ||
      name == "host-context") = true
  · exact hlist false fun items source => by rw [readArgument, if_neg hforgiving, if_pos hstrict]
  by_cases hof : (name == "nth-child" || name == "nth-last-child") = true
  · exact hnth true fun items source => by
      rw [readArgument, if_neg hforgiving, if_neg hstrict, if_pos hof]
  by_cases htype : (name == "nth-of-type" || name == "nth-last-of-type") = true
  · exact hnth false fun items source => by
      rw [readArgument, if_neg hforgiving, if_neg hstrict, if_neg hof, if_pos htype]
  rw [readArgument, if_neg hforgiving, if_neg hstrict, if_neg hof, if_neg htype]
  split
  · exact hwords (fun texts => texts) _
  split
  · exact hwords (fun word => [word]) _
  · exact .pure ⟨rfl, trivial, by simp [Argument.lists]⟩

end Components

mutual

theorem sound_ofValue {v : Value} (h : v.Sound) : (Item.ofValue v).Sound := by
  obtain t | ⟨opener, contents, source⟩ := v
  · cases h with
    | token h => exact h
  · obtain ⟨hopener, hcontents⟩ : opener.Sound ∧ ∀ v ∈ contents, v.Sound := by
      cases h with
      | block ho hc => exact ⟨ho, hc⟩
    have hitems := sound_ofValues hcontents
    unfold Item.ofValue
    split
    · exact fun a ha => sound_readAttribute hitems ha
    · exact ⟨hopener, readsAlike_readArgument hitems _ _⟩
    · exact hopener

theorem sound_ofValues {vs : List Value} (h : ∀ v ∈ vs, v.Sound) :
    ∀ i ∈ Item.ofValues vs, i.Sound := by
  obtain _ | ⟨v, vs⟩ := vs
  · simp [Item.ofValues]
  · obtain ⟨hv, hvs⟩ := List.forall_mem_cons.mp h
    rw [Item.ofValues, List.forall_mem_cons]
    exact ⟨sound_ofValue hv, sound_ofValues hvs⟩

end

/-- A list that was read is sound. -/
theorem SelectorList.sound_of_parse {text : String} {list : SelectorList}
    (h : parse text = .ok list) : list.Sound ∧ list.selectors ≠ [] := by
  have hread := readsAlike_readList false (sound_ofValues (sound_values text)) 0 0
  unfold parse at h
  rw [h] at hread
  exact ⟨hread.1.2, fun hnil => nomatch hread.2 hnil⟩

end DomQuery.Selector
