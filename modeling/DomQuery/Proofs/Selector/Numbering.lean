import DomQuery.Proofs.Css.Step
import DomQuery.Proofs.Selector.Written
import Mathlib.Data.List.Nodup
import Mathlib.Data.List.Perm.Subperm

/-!
# The numbers of lists

Reading gives every list a number of its own, also while branches fail and are
left out. So a number stands for one list of the selector, and what is
remembered under it can be meant for no other.

* `Numbered lo hi` says that numbers are distinct and lie between two bounds.
* `Reads` follows that through the readers, one lemma for each of them.
* `nodup_numbers`: no two lists of a selector have the same number.
-/

namespace DomQuery.Selector

open DomQuery.Css DomQuery.Text

/-- The numbers of a list and of all lists in it. -/
def SelectorList.numbers (list : SelectorList) : List Nat :=
  list.allLists.map fun inner => inner.id.index

def Argument.numbers (argument : Argument) : List Nat :=
  argument.lists.flatMap SelectorList.numbers

def Component.numbers (c : Component) : List Nat :=
  c.lists.flatMap SelectorList.numbers

/-- The numbers of the lists in the arguments of components, at any depth. -/
def numbersIn (components : List Component) : List Nat :=
  components.flatMap Component.numbers

theorem Component.numbers_eq (c : Component) :
    c.numbers = c.holders.map fun holder => holder.2.id.index := by
  rw [numbers, holders_eq, List.map_flatMap]
  congr 1
  funext list
  simp [SelectorList.numbers, SelectorList.allLists]

theorem SelectorList.numbers_eq (list : SelectorList) :
    list.numbers = list.id.index ::
      list.selectors.flatMap fun within => numbersIn within.components := by
  rw [numbers, allLists, List.map_cons, List.map_map, holders_eq, List.map_flatMap]
  congr 2
  funext within
  rw [List.map_flatMap, numbersIn]
  congr 1
  funext c
  exact c.numbers_eq.symm

theorem Component.numbers_of_lists_nil {c : Component} (h : c.lists = []) : c.numbers = [] := by
  simp [numbers, h]

/-- The numbers lie from `lo` up to `hi`, and no two of them are the same. -/
def Numbered (lo hi : Nat) (numbers : List Nat) : Prop :=
  numbers.Nodup ∧ ∀ i ∈ numbers, lo ≤ i ∧ i < hi

namespace Numbered

variable {lo mid hi n : Nat} {numbers rest : List Nat}

theorem nil : Numbered lo hi [] :=
  ⟨List.nodup_nil, by simp⟩

theorem mono (h : Numbered mid hi numbers) (hle : lo ≤ mid) : Numbered lo hi numbers :=
  ⟨h.1, fun i hi => ⟨Nat.le_trans hle (h.2 i hi).1, (h.2 i hi).2⟩⟩

/-- Some of the numbers, in any order. -/
theorem subperm (h : Numbered lo hi numbers) (hs : rest.Subperm numbers) :
    Numbered lo hi rest := by
  have hsub := hs.subset
  obtain ⟨rest', hp, hs⟩ := hs
  exact ⟨hp.nodup_iff.mp (h.1.sublist hs), fun i hi => h.2 i (hsub hi)⟩

theorem append (h : Numbered lo mid numbers) (hr : Numbered mid hi rest) (hlo : lo ≤ mid)
    (hhi : mid ≤ hi) : Numbered lo hi (numbers ++ rest) := by
  refine ⟨List.nodup_append.mpr ⟨h.1, hr.1, ?_⟩, fun i hi => ?_⟩
  · rintro i hi _ hi' rfl
    have := (h.2 i hi).2
    have := (hr.2 i hi').1
    omega
  · rcases List.mem_append.mp hi with hi | hi
    · have := h.2 i hi
      omega
    · have := hr.2 i hi
      omega

/-- The number of a list is below those of the lists in it. -/
theorem cons (h : Numbered (n + 1) hi numbers) (hhi : n + 1 ≤ hi) :
    Numbered n hi (n :: numbers) := by
  have hn : Numbered n (n + 1) [n] := ⟨by simp, by simp⟩
  exact hn.append h (Nat.le_succ n) hhi

end Numbered

/-! ### Readers -/

section Readers

variable {α β : Type}

/-- Reading, after what is numbered already, leaves numbers behind that are
distinct too, and a result that satisfies `Q`. -/
def Reads (known : List Nat) (read : Read α) (numbers : α → List Nat) (Q : α → Prop) : Prop :=
  ∀ lo n, lo ≤ n → Numbered lo n known →
    n ≤ (read.run.run n).2 ∧
      ∀ a, (read.run.run n).1 = .ok a → Numbered lo (read.run.run n).2 (numbers a) ∧ Q a

namespace Reads

variable {known : List Nat} {read : Read α} {numbers : α → List Nat} {Q : α → Prop}

protected theorem pure {a : α} (h : (numbers a).Subperm known) (hQ : Q a) :
    Reads known (pure a) numbers Q := by
  intro lo n _ hn
  refine ⟨Nat.le_refl n, ?_⟩
  rintro _ ⟨⟩
  exact ⟨hn.subperm h, hQ⟩

theorem pure_nil {a : α} (h : numbers a = []) (hQ : Q a) : Reads known (pure a) numbers Q :=
  .pure (h ▸ List.nil_subperm) hQ

protected theorem throw {e : ReadError} : Reads known (throw e : Read α) numbers Q := by
  intro lo n _ _
  exact ⟨Nat.le_refl n, fun _ h => by cases h⟩

protected theorem bind {f : α → Read β} {numbers' : β → List Nat} {Q' : β → Prop}
    (hx : Reads known read numbers Q) (hf : ∀ a, Q a → Reads (numbers a) (f a) numbers' Q') :
    Reads known (read >>= f) numbers' Q' := by
  intro lo n hlo hn
  obtain ⟨hle, hok⟩ := hx lo n hlo hn
  rw [run_bind]
  rcases hr : read.run.run n with ⟨e | a, n'⟩ <;> rw [hr] at hle hok
  · exact ⟨hle, fun _ h => by cases h⟩
  · obtain ⟨hn', hQ⟩ := hok a rfl
    obtain ⟨hle', hok'⟩ := hf a hQ lo n' (Nat.le_trans hlo hle) hn'
    exact ⟨Nat.le_trans hle hle', hok'⟩

theorem weaken {more : List Nat} (h : Reads known read numbers Q) (hk : known.Subperm more) :
    Reads more read numbers Q :=
  fun lo n hlo hn => h lo n hlo (hn.subperm hk)

/-- What was numbered before stays as it is. -/
theorem frame (h : Reads [] read numbers Q) :
    Reads known read (fun a => known ++ numbers a) Q := by
  intro lo n hlo hn
  obtain ⟨hle, hok⟩ := h n n (Nat.le_refl n) .nil
  refine ⟨hle, fun a ha => ⟨?_, (hok a ha).2⟩⟩
  exact hn.append (hok a ha).1 hlo hle

protected theorem attempt (h : Reads [] read numbers fun _ => True) :
    Reads [] (attempt read) (fun a => (a.map numbers).getD []) fun _ => True := by
  intro lo n hlo hn
  obtain ⟨hle, hok⟩ := h lo n hlo hn
  rw [DomQuery.attempt, run_tryCatch, map_eq_pure_bind, run_bind]
  rcases hr : read.run.run n with ⟨e | a, n'⟩ <;> rw [hr] at hle hok
  · refine ⟨hle, ?_⟩
    rintro _ ⟨⟩
    exact ⟨.nil, trivial⟩
  · refine ⟨hle, ?_⟩
    rintro _ ⟨⟩
    exact hok a rfl

protected theorem mapM {f : β → Read α} {xs : List β} (h : ∀ x ∈ xs, Reads [] (f x) numbers Q) :
    Reads [] (xs.mapM f) (fun as => as.flatMap numbers) fun _ => True := by
  induction xs with
  | nil => exact .pure_nil rfl trivial
  | cons x xs ih =>
    rw [List.mapM_cons]
    refine (h x (by simp)).bind fun a _ => ?_
    refine (ih fun x hx => h x (by simp [hx])).frame.bind fun as _ => ?_
    exact .pure (.refl _) trivial

end Reads

/-- The readers in the item number their lists. -/
def Item.Numbers : Item → Prop
  | .function _ argument _ => Reads [] argument Argument.numbers fun _ => True
  | _ => True

theorem barredType?_inv {q : Qualifier} {items rest : List Item} {c : Component}
    (h : barredType? q items = some (c, rest)) : c.lists = [] ∧ rest ⊆ items := by
  unfold barredType? at h
  split at h
  · obtain ⟨rfl, rfl⟩ : _ = c ∧ _ = rest := by simpa using h
    exact ⟨rfl, by simp⟩
  · obtain ⟨rfl, rfl⟩ : _ = c ∧ _ = rest := by simpa using h
    exact ⟨rfl, by simp⟩
  · cases h

theorem readType_inv (name : Option String) (items : List Item) :
    (readType name items).1.lists = [] ∧ (readType name items).2 ⊆ items := by
  unfold readType
  split
  · rename_i tail
    have hbarred : ∀ {q : Qualifier} {plain : Component} {r : Component × List Item},
        plain.lists = [] → (barredType? q tail).getD (plain, .token (.delim '|') :: tail) = r →
        r.1.lists = [] ∧ r.2 ⊆ .token (.delim '|') :: tail := by
      rintro q plain r hplain rfl
      rcases h : barredType? q tail with _ | ⟨c, rest⟩
      · exact ⟨hplain, fun i hi => hi⟩
      · obtain ⟨hc, hr⟩ := barredType?_inv h
        exact ⟨hc, fun i hi => List.mem_cons_of_mem _ (hr hi)⟩
    exact hbarred rfl rfl
  · exact ⟨rfl, fun i hi => hi⟩

theorem reads_readPseudo {items : List Item} (h : ∀ i ∈ items, i.Numbers) :
    Reads [] (readPseudo items) (fun r => r.1.numbers) fun r => r.2 ⊆ items := by
  unfold readPseudo
  split
  · exact .pure_nil rfl (by simp)
  · exact .pure_nil rfl (by simp)
  · exact .throw
  · exact .pure_nil rfl (by simp)
  · rename_i name argument source rest
    have ha : Reads [] argument Argument.numbers fun _ => True :=
      h (.function name argument source) (by simp)
    exact ha.bind fun a _ => .pure (.refl _) (by simp)
  · exact .throw

theorem reads_readSimple {item : Item} {rest : List Item} (h : ∀ i ∈ rest, i.Numbers) :
    Reads [] (readSimple item rest) (fun r => r.1.numbers) fun r => r.2 ⊆ rest := by
  unfold readSimple
  split
  · obtain ⟨hc, hr⟩ := readType_inv (some ‹String›) rest
    exact .pure_nil (Component.numbers_of_lists_nil hc) hr
  · obtain ⟨hc, hr⟩ := readType_inv none rest
    exact .pure_nil (Component.numbers_of_lists_nil hc) hr
  · split
    · rename_i hb
      obtain ⟨hc, hr⟩ := barredType?_inv hb
      exact .pure_nil (Component.numbers_of_lists_nil hc) hr
    · exact .throw
  · exact .pure_nil rfl (by simp)
  · split
    · exact .pure_nil rfl (by simp)
    · exact .throw
  · split
    · exact .pure_nil rfl (by simp)
    · exact .throw
  · exact reads_readPseudo h
  · exact .throw

theorem numbersIn_joined (space : Bool) (components : List Component) :
    numbersIn (joined space components) = numbersIn components := by
  unfold joined
  split
  · rfl
  · rfl

theorem reads_readComponents {fuel : Nat} {space : Bool} {components : List Component}
    {items : List Item} (h : ∀ i ∈ items, i.Numbers) :
    Reads (numbersIn components) (readComponents fuel space components items) numbersIn
      fun _ => True := by
  have hreverse : (numbersIn components.reverse).Subperm (numbersIn components) :=
    (components.reverse_perm.flatMap_right Component.numbers).subperm
  induction fuel generalizing space components items with
  | zero =>
    unfold readComponents
    split
    · exact .throw
    · exact .pure hreverse trivial
    · exact .pure hreverse trivial
    · contradiction
  | succ fuel ih =>
    have ih : ∀ {space components items}, (∀ i ∈ items, i.Numbers) → Reads (numbersIn components)
        (readComponents fuel space components items) numbersIn fun _ => True :=
      fun h => ih h (List.Perm.flatMap_right _ (List.reverse_perm _)).subperm
    rcases items with _ | ⟨item, rest⟩
    · rcases components with _ | ⟨c, components⟩
      · exact .throw
      · exact .pure hreverse trivial
    · have hrest : ∀ i ∈ rest, i.Numbers := fun i hi => h i (by simp [hi])
      rw [readComponents]
      split
      · exact ih hrest
      split
      · exact (ih hrest).weaken (.refl _)
      · refine (reads_readSimple hrest).frame.bind fun r hr => ?_
        refine (ih fun i hi => hrest i (hr hi)).weaken ?_
        rw [numbersIn, List.flatMap_cons, ← numbersIn, numbersIn_joined]
        exact List.perm_append_comm.subperm

theorem reads_readComplex {items : List Item} (h : ∀ i ∈ items, i.Numbers) :
    Reads [] (readComplex items) (fun within => numbersIn within.components) fun _ => True := by
  rw [readComplex, map_eq_pure_bind]
  have hread : Reads [] (readComponents items.length false [] items) numbersIn fun _ => True :=
    @reads_readComponents items.length false [] items h
  exact hread.bind fun cs _ => .pure (.refl _) trivial

theorem infix_of_splitCommas {items group : List Item} (h : group ∈ splitCommas items) :
    group <:+: items := by
  suffices hgroups : ∀ items : List Item, ∃ first groups, splitCommas items = first :: groups ∧
      first <+: items ∧ ∀ group ∈ groups, group <:+: items by
    obtain ⟨first, groups, heq, hfirst, hgroups⟩ := hgroups items
    rw [heq] at h
    rcases List.mem_cons.mp h with rfl | h
    · exact hfirst.isInfix
    · exact hgroups _ h
  intro items
  induction items with
  | nil => exact ⟨[], [], rfl, List.prefix_rfl, by simp⟩
  | cons i rest ih =>
    obtain ⟨first, groups, heq, hfirst, hgroups⟩ := ih
    rw [splitCommas, heq]
    have hrest : rest <:+: i :: rest := (List.suffix_cons i rest).isInfix
    cases i.isComma with
    | true =>
      refine ⟨[], first :: groups, rfl, List.nil_prefix, List.forall_mem_cons.mpr ⟨?_, ?_⟩⟩
      · exact hfirst.isInfix.trans hrest
      · exact fun group hg => (hgroups group hg).trans hrest
    | false =>
      refine ⟨i :: first, groups, rfl, List.cons_prefix_cons.mpr ⟨rfl, hfirst⟩, ?_⟩
      exact fun group hg => (hgroups group hg).trans hrest

theorem flatMap_filterMap_id (f : α → List β) (found : List (Option α)) :
    (found.filterMap fun a => a).flatMap f = found.flatMap fun a => (a.map f).getD [] := by
  induction found with
  | nil => rfl
  | cons a rest ih =>
    rcases a with _ | a
    · exact ih
    · simp [ih]

/-- The branches of a list are numbered after the list itself. -/
theorem reads_numbered {f : ListId → Read SelectorList}
    (h : ∀ id, Reads [] (f id)
      (fun list => list.selectors.flatMap fun within => numbersIn within.components)
      fun list => list.id = id) :
    Reads [] (freshId >>= f) SelectorList.numbers fun _ => True := by
  intro lo n hlo _
  have hrun : (freshId >>= f).run.run n = (f ⟨n⟩).run.run (n + 1) := rfl
  obtain ⟨hle, hok⟩ := h ⟨n⟩ (n + 1) (n + 1) (Nat.le_refl _) .nil
  rw [hrun]
  refine ⟨by omega, fun list hl => ⟨?_, trivial⟩⟩
  obtain ⟨hn, hid⟩ := hok list hl
  rw [SelectorList.numbers_eq, hid]
  exact (hn.cons hle).mono hlo

theorem reads_readList (forgiving : Bool) {items : List Item} (h : ∀ i ∈ items, i.Numbers) :
    Reads [] (readList forgiving items) SelectorList.numbers fun _ => True := by
  have hbranches : ∀ branch ∈ (splitCommas items).map readComplex,
      Reads [] branch (fun within => numbersIn within.components) fun _ => True := by
    intro branch hb
    obtain ⟨group, hg, rfl⟩ := List.mem_map.mp hb
    exact reads_readComplex fun i hi => h i ((infix_of_splitCommas hg).subset hi)
  refine reads_numbered fun id => ?_
  cases forgiving with
  | true =>
    refine (Reads.mapM fun branch hb => (hbranches branch hb).attempt).bind fun found _ => ?_
    refine .pure ?_ rfl
    rw [SelectorList.selectors, flatMap_filterMap_id]
  | false =>
    refine (Reads.mapM fun branch hb => hbranches branch hb).bind fun selectors _ => ?_
    exact .pure (.refl _) rfl

theorem afterOf?_suffix {items rest : List Item} (h : afterOf? items = some rest) :
    rest <:+ items := by
  unfold afterOf? at h
  split at h
  · rename_i hn
    split at h
    · obtain rfl : _ = rest := by simpa using h
      exact next_suffix hn
    · cases h
  · cases h

theorem reads_lift {α : Type} (result : Except ReadError α) :
    Reads [] (lift result) (fun _ => []) fun a => result = .ok a := by
  rcases result with e | a
  · exact .throw
  · exact .pure_nil rfl rfl

theorem reads_readNth {allowOf : Bool} {items : List Item} (h : ∀ i ∈ items, i.Numbers) :
    Reads [] (readNth allowOf items) Argument.numbers fun _ => True := by
  refine (reads_lift _).bind fun ⟨⟨a, b⟩, rest⟩ hr => ?_
  have hrest : ∀ i ∈ rest, i.Numbers := fun i hi => h i ((readStep_suffix hr).subset hi)
  simp only
  split
  · rename_i tail ho
    have htail : ∀ i ∈ tail, i.Numbers := by
      cases allowOf
      · cases ho
      · exact fun i hi => hrest i ((afterOf?_suffix ho).subset hi)
    refine (reads_readList false htail).bind fun list _ => .pure ?_ trivial
    simpa [Argument.numbers, Argument.lists] using .refl _
  · exact (reads_lift _).bind fun _ _ => .pure_nil rfl trivial

theorem reads_readArgument {items : List Item} (h : ∀ i ∈ items, i.Numbers) (name : String)
    (source : String) :
    Reads [] (readArgument name items source) Argument.numbers fun _ => True := by
  have hlist : ∀ forgiving, Reads [] (Argument.selectors <$> readList forgiving items)
      Argument.numbers fun _ => True := by
    intro forgiving
    rw [map_eq_pure_bind]
    refine (reads_readList forgiving h).bind fun list _ => .pure ?_ trivial
    simpa [Argument.numbers, Argument.lists] using .refl _
  have hwords : ∀ {α : Type} (f : α → List String) (result : Except ReadError α),
      Reads [] ((fun a => Argument.words (f a)) <$> lift result) Argument.numbers
        fun _ => True := by
    intro α f result
    rw [map_eq_pure_bind]
    exact (reads_lift _).bind fun _ _ => .pure_nil rfl trivial
  unfold readArgument
  split
  · exact hlist true
  split
  · exact hlist false
  split
  · exact reads_readNth h
  split
  · exact reads_readNth h
  split
  · exact hwords (fun texts => texts) _
  split
  · exact hwords (fun word => [word]) _
  · exact .pure_nil rfl trivial

mutual

theorem numbers_ofValue (v : Value) : (Item.ofValue v).Numbers := by
  obtain t | ⟨opener, contents, source⟩ := v
  · trivial
  · have := numbers_ofValues contents
    unfold Item.ofValue
    split
    · trivial
    · exact reads_readArgument this _ _
    · trivial

theorem numbers_ofValues (vs : List Value) : ∀ i ∈ Item.ofValues vs, i.Numbers := by
  obtain _ | ⟨v, vs⟩ := vs
  · simp [Item.ofValues]
  · rw [Item.ofValues, List.forall_mem_cons]
    exact ⟨numbers_ofValue v, numbers_ofValues vs⟩

end

end Readers

/-- No two lists of a selector have the same number. -/
theorem nodup_numbers {text : String} {list : SelectorList}
    (h : SelectorList.ofText text = .ok list) : (list.allLists.map SelectorList.id).Nodup := by
  have hread : ((readList false (Item.ofValues (values text))).run.run 0).1 = .ok list :=
    mapError_eq_ok.mp h
  obtain ⟨-, hok⟩ := reads_readList false (numbers_ofValues (values text)) 0 0 (Nat.le_refl 0) .nil
  have hn : (list.allLists.map fun inner => inner.id.index).Nodup := (hok list hread).1.1
  have hmap : (list.allLists.map fun inner => inner.id.index) =
      (list.allLists.map SelectorList.id).map ListId.index := by
    simp
  rw [hmap] at hn
  exact List.Nodup.of_map _ hn

end DomQuery.Selector
