import DomQuery.Proofs.Remember
import DomQuery.Query.Matcher

/-!
# Evaluation does not depend on what is counted

An evaluation remembers the children that child-indexed pseudo-classes select.
Evaluations that are put together from steady ones are steady, so what an
evaluation comes to is a matter of its parts.

* `Decides` and `Collects` say what an evaluation comes to unless it fails, and
  `filterM_ok`, `findM?_ok`, `Decides.anyM` and `Collects.collectM` say so of
  lists of evaluations.
-/

namespace DomQuery

open Query

variable {κ υ ε : Type}

/-- The answer to a test is yes. -/
def Yes (test : Remembering κ υ ε Bool) : Prop :=
  fresh test = .ok true

/-- If the test comes to an answer, it says whether `P` holds. -/
def Decides (test : Remembering κ υ ε Bool) (P : Prop) : Prop :=
  ∀ b, fresh test = .ok b → (b = true ↔ P)

/-- If the computation comes to a list, it holds what satisfies `P`. -/
def Collects {α : Type} (x : Remembering κ υ ε (List α)) (P : α → Prop) : Prop :=
  ∀ l, fresh x = .ok l → ∀ a, a ∈ l ↔ P a

section Basic

variable {α : Type}

theorem yes_pure {b : Bool} : Yes (pure b : Remembering κ υ ε Bool) ↔ b = true := by
  simp [Yes]

theorem decides_yes (test : Remembering κ υ ε Bool) : Decides test (Yes test) := by
  intro b hb
  simp [Yes, hb]

theorem decides_pure {b : Bool} {P : Prop} (h : b = true ↔ P) :
    Decides (pure b : Remembering κ υ ε Bool) P := by
  rintro _ ⟨⟩
  exact h

theorem Collects.congr {x : Remembering κ υ ε (List α)} {P Q : α → Prop} (h : Collects x P)
    (hPQ : ∀ a, P a ↔ Q a) : Collects x Q :=
  fun l hl a => (h l hl a).trans (hPQ a)

end Basic

/-! ### Lists of tests -/

section Lists

variable {m : Type → Type} [Monad m] [LawfulMonad m] {α : Type}

theorem filterAuxM_eq (p : α → m Bool) (xs acc : List α) :
    xs.filterAuxM p acc = (fun ys => ys ++ acc) <$> xs.filterAuxM p [] := by
  induction xs generalizing acc with
  | nil => simp [List.filterAuxM]
  | cons x xs ih =>
    simp only [List.filterAuxM, map_bind]
    congr 1
    funext b
    rw [ih, ih (cond b [x] [])]
    cases b <;> simp [Functor.map_map]

theorem filterM_cons (p : α → m Bool) (x : α) (xs : List α) :
    (x :: xs).filterM p =
      p x >>= fun b => (fun ys => if b then x :: ys else ys) <$> xs.filterM p := by
  simp only [List.filterM, List.filterAuxM, bind_pure_comp, map_bind]
  congr 1
  funext b
  rw [filterAuxM_eq]
  cases b <;> simp [Functor.map_map]

theorem filterM_congr {p q : α → m Bool} {xs : List α} (h : ∀ x ∈ xs, p x = q x) :
    xs.filterM p = xs.filterM q := by
  induction xs with
  | nil => rfl
  | cons x xs ih =>
    obtain ⟨hx, hxs⟩ := List.forall_mem_cons.mp h
    rw [filterM_cons, filterM_cons, hx, ih hxs]

omit [LawfulMonad m] in
theorem findM?_congr {p q : α → m Bool} {xs : List α} (h : ∀ x ∈ xs, p x = q x) :
    xs.findM? p = xs.findM? q := by
  induction xs with
  | nil => rfl
  | cons x xs ih =>
    obtain ⟨hx, hxs⟩ := List.forall_mem_cons.mp h
    rw [List.findM?, List.findM?, hx, ih hxs]

omit [LawfulMonad m] in
theorem anyM_map {β : Type} (f : β → α) (p : α → m Bool) (xs : List β) :
    (xs.map f).anyM p = xs.anyM fun x => p (f x) := by
  induction xs with
  | nil => rfl
  | cons x xs ih => rw [List.map_cons, List.anyM, List.anyM, ih]

omit [LawfulMonad m] in
theorem allM_map {β : Type} (f : β → α) (p : α → m Bool) (xs : List β) :
    (xs.map f).allM p = xs.allM fun x => p (f x) := by
  induction xs with
  | nil => rfl
  | cons x xs ih => rw [List.map_cons, List.allM, List.allM, ih]

/-- Where a test just says no, it need not be made. -/
theorem filterM_filter {p : α → m Bool} {q : α → Bool} {xs : List α}
    (h : ∀ x ∈ xs, q x = false → p x = pure false) : (xs.filter q).filterM p = xs.filterM p := by
  induction xs with
  | nil => rfl
  | cons x xs ih =>
    obtain ⟨hx, hxs⟩ := List.forall_mem_cons.mp h
    cases hq : q x with
    | true => rw [List.filter_cons_of_pos hq, filterM_cons, filterM_cons, ih hxs]
    | false =>
      rw [List.filter_cons_of_neg (by simp [hq]), ih hxs, filterM_cons, hx hq, pure_bind]
      exact (id_map _).symm

theorem findM?_filter {p : α → m Bool} {q : α → Bool} {xs : List α}
    (h : ∀ x ∈ xs, q x = false → p x = pure false) : (xs.filter q).findM? p = xs.findM? p := by
  induction xs with
  | nil => rfl
  | cons x xs ih =>
    obtain ⟨hx, hxs⟩ := List.forall_mem_cons.mp h
    cases hq : q x with
    | true => rw [List.filter_cons_of_pos hq, List.findM?, List.findM?, ih hxs]
    | false => rw [List.filter_cons_of_neg (by simp [hq]), ih hxs, List.findM?, hx hq, pure_bind]

end Lists

section Tests

variable {counts : κ → Except ε υ} {E : ε → Prop}
variable {α β : Type} {p : α → Remembering κ υ ε Bool} {xs : List α}

theorem Steady.filterM (h : ∀ x ∈ xs, Steady counts E (p x)) :
    Steady counts E (xs.filterM p) := by
  induction xs with
  | nil => exact .pure []
  | cons x xs ih =>
    rw [filterM_cons]
    exact (h x (by simp)).bind fun b _ => .map _ (ih fun x hx => h x (by simp [hx]))

theorem Steady.fresh_filterM (h : ∀ x ∈ xs, Steady counts E (p x)) :
    fresh (xs.filterM p) = xs.filterM fun x => fresh (p x) := by
  induction xs with
  | nil => rfl
  | cons x xs ih =>
    obtain ⟨hx, hxs⟩ := List.forall_mem_cons.mp h
    have hrest : Steady counts E (xs.filterM p) := .filterM hxs
    rw [filterM_cons, filterM_cons, hx.fresh_bind fun b _ => .map _ hrest]
    simp only [hrest.fresh_map, ih hxs]

/-- When all tests come to answers, filtering goes by them. -/
theorem Steady.fresh_filterM_eq (h : ∀ x ∈ xs, Steady counts E (p x)) {q : α → Bool}
    (hq : ∀ x ∈ xs, fresh (p x) = .ok (q x)) : fresh (xs.filterM p) = .ok (xs.filter q) := by
  induction xs with
  | nil => rfl
  | cons x xs ih =>
    obtain ⟨hx, hxs⟩ := List.forall_mem_cons.mp h
    obtain ⟨hqx, hqxs⟩ := List.forall_mem_cons.mp hq
    have hrest : Steady counts E (xs.filterM p) := .filterM hxs
    rw [filterM_cons, hx.fresh_bind fun b _ => .map _ hrest, hqx]
    change fresh ((fun ys => if q x then x :: ys else ys) <$> xs.filterM p) = _
    rw [hrest.fresh_map, ih hxs hqxs, List.filter_cons]
    rfl

theorem Steady.filterM_answers (h : ∀ x ∈ xs, Steady counts E (p x))
    (ha : ∀ x ∈ xs, Answers (p x)) : Answers (xs.filterM p) := by
  classical
  refine ⟨_, Steady.fresh_filterM_eq (q := fun x => decide (Yes (p x))) h fun x hx => ?_⟩
  obtain ⟨b, hb⟩ := ha x hx
  simp [Yes, hb]

/-- What is filtered is tested all along. -/
theorem answers_of_filterM (h : ∀ x ∈ xs, Steady counts E (p x)) (ha : Answers (xs.filterM p)) :
    ∀ x ∈ xs, Answers (p x) := by
  induction xs with
  | nil => simp
  | cons x xs ih =>
    obtain ⟨hx, hxs⟩ := List.forall_mem_cons.mp h
    obtain ⟨ys, hys⟩ := ha
    rw [filterM_cons] at hys
    obtain ⟨b, hb, hys⟩ := hx.bind_ok (fun b _ => .map _ (.filterM hxs)) hys
    obtain ⟨zs, hzs, -⟩ := (Steady.filterM hxs).map_ok hys
    exact List.forall_mem_cons.mpr ⟨⟨b, hb⟩, ih hxs ⟨zs, hzs⟩⟩

/-- What passes the tests, in the order in which it was tested. -/
theorem filterM_ok {P : α → Prop} (h : ∀ x ∈ xs, Steady counts E (p x))
    (hP : ∀ x ∈ xs, Decides (p x) (P x)) {ys : List α} (hr : fresh (xs.filterM p) = .ok ys) :
    ys.Sublist xs ∧ ∀ y, y ∈ ys ↔ y ∈ xs ∧ P y := by
  induction xs generalizing ys with
  | nil =>
    obtain rfl : [] = ys := by simpa [List.filterM, List.filterAuxM] using hr
    simp
  | cons x xs ih =>
    obtain ⟨hx, hxs⟩ := List.forall_mem_cons.mp h
    obtain ⟨hPx, hPxs⟩ := List.forall_mem_cons.mp hP
    rw [filterM_cons] at hr
    obtain ⟨b, hb, hr⟩ := hx.bind_ok (fun b _ => .map _ (.filterM hxs)) hr
    obtain ⟨zs, hz, rfl⟩ := (Steady.filterM hxs).map_ok hr
    obtain ⟨hsub, hmem⟩ := ih hxs hPxs hz
    have hPx := hPx b hb
    cases b with
    | true =>
      refine ⟨hsub.cons_cons x, fun y => ?_⟩
      simp only [if_true, List.mem_cons, hmem y]
      constructor
      · rintro (rfl | ⟨hy, hp⟩)
        · exact ⟨.inl rfl, hPx.mp rfl⟩
        · exact ⟨.inr hy, hp⟩
      · rintro ⟨rfl | hy, hp⟩
        · exact .inl rfl
        · exact .inr ⟨hy, hp⟩
    | false =>
      refine ⟨hsub.cons x, fun y => ?_⟩
      simp only [Bool.false_eq_true, if_false, List.mem_cons, hmem y]
      constructor
      · exact fun ⟨hy, hp⟩ => ⟨.inr hy, hp⟩
      · rintro ⟨rfl | hy, hp⟩
        · exact absurd (hPx.mpr hp) Bool.false_ne_true
        · exact ⟨hy, hp⟩

theorem Steady.anyM (h : ∀ x ∈ xs, Steady counts E (p x)) : Steady counts E (xs.anyM p) := by
  induction xs with
  | nil => exact .pure false
  | cons x xs ih =>
    rw [List.anyM]
    refine (h x (by simp)).bind fun b _ => ?_
    cases b with
    | true => exact .pure true
    | false => exact ih fun x hx => h x (by simp [hx])

theorem Steady.anyM_answers (h : ∀ x ∈ xs, Steady counts E (p x))
    (ha : ∀ x ∈ xs, Answers (p x)) : Answers (xs.anyM p) := by
  induction xs with
  | nil => exact answers_pure false
  | cons x xs ih =>
    obtain ⟨hx, hxs⟩ := List.forall_mem_cons.mp h
    obtain ⟨hax, haxs⟩ := List.forall_mem_cons.mp ha
    rw [List.anyM]
    refine hx.answers_bind (fun b _ => ?_) hax fun b _ => ?_
    · cases b with
      | true => exact .pure true
      | false => exact .anyM hxs
    · cases b with
      | true => exact answers_pure true
      | false => exact ih hxs haxs

theorem Decides.anyM {P : α → Prop} (h : ∀ x ∈ xs, Steady counts E (p x))
    (hP : ∀ x ∈ xs, Decides (p x) (P x)) : Decides (xs.anyM p) (∃ x ∈ xs, P x) := by
  intro b hr
  induction xs with
  | nil =>
    obtain rfl : false = b := by simpa [List.anyM] using hr
    simp
  | cons x xs ih =>
    obtain ⟨hx, hxs⟩ := List.forall_mem_cons.mp h
    obtain ⟨hPx, hPxs⟩ := List.forall_mem_cons.mp hP
    rw [List.anyM] at hr
    obtain ⟨c, hc, hr⟩ := hx.bind_ok (fun c _ => by
      cases c with
      | true => exact .pure true
      | false => exact .anyM hxs) hr
    have hPx := hPx c hc
    cases c with
    | true =>
      obtain rfl : true = b := by simpa using hr
      exact ⟨fun _ => ⟨x, by simp, hPx.mp rfl⟩, fun _ => rfl⟩
    | false =>
      rw [ih hxs hPxs hr]
      simp [show ¬P x from fun h => Bool.false_ne_true (hPx.mpr h)]

theorem Steady.allM (h : ∀ x ∈ xs, Steady counts E (p x)) : Steady counts E (xs.allM p) := by
  induction xs with
  | nil => exact .pure true
  | cons x xs ih =>
    rw [List.allM]
    refine (h x (by simp)).bind fun b _ => ?_
    cases b with
    | true => exact ih fun x hx => h x (by simp [hx])
    | false => exact .pure false

/-- In a row of tests, the others come into play when the first one passes. -/
theorem Steady.allM_cons_ok {x : α} (hx : Steady counts E (p x))
    (hxs : ∀ x ∈ xs, Steady counts E (p x)) {b : Bool} (h : fresh ((x :: xs).allM p) = .ok b) :
    fresh (p x) = .ok false ∧ b = false ∨ Yes (p x) ∧ fresh (xs.allM p) = .ok b := by
  rw [List.allM] at h
  obtain ⟨c, hc, h⟩ := hx.bind_ok (fun c _ => by
    cases c with
    | true => exact .allM hxs
    | false => exact .pure false) h
  cases c with
  | true => exact .inr ⟨hc, h⟩
  | false => exact .inl ⟨hc, by simpa using h.symm⟩

theorem yes_allM (h : ∀ x ∈ xs, Steady counts E (p x)) :
    Yes (xs.allM p) ↔ ∀ x ∈ xs, Yes (p x) := by
  induction xs with
  | nil => simp [Yes, List.allM]
  | cons x xs ih =>
    obtain ⟨hx, hxs⟩ := List.forall_mem_cons.mp h
    rw [List.forall_mem_cons, ← ih hxs]
    constructor
    · intro hall
      exact (hx.allM_cons_ok hxs hall).resolve_left fun hno => nomatch hno.2
    · rintro ⟨hyes, hrest⟩
      rw [Yes, List.allM, hx.fresh_bind fun c _ => by
        cases c with
        | true => exact .allM hxs
        | false => exact .pure false]
      rw [show fresh (p x) = .ok true from hyes]
      exact hrest

/-- When all other tests pass, a row of tests comes to an answer only if the one
does. -/
theorem answers_of_allM (h : ∀ x ∈ xs, Steady counts E (p x)) {x₀ : α} (hx₀ : x₀ ∈ xs)
    (hothers : ∀ x ∈ xs, x = x₀ ∨ Yes (p x)) (ha : Answers (xs.allM p)) : Answers (p x₀) := by
  induction xs with
  | nil => cases hx₀
  | cons x xs ih =>
    obtain ⟨hx, hxs⟩ := List.forall_mem_cons.mp h
    obtain ⟨hother, hothers⟩ := List.forall_mem_cons.mp hothers
    obtain ⟨b, hb⟩ := ha
    rcases hx.allM_cons_ok hxs hb with ⟨hno, -⟩ | ⟨hyes, hrest⟩
    · obtain rfl : x = x₀ := hother.resolve_right fun hyes => nomatch hno.symm.trans hyes
      exact ⟨false, hno⟩
    · rcases List.mem_cons.mp hx₀ with rfl | hx₀
      · exact ⟨true, hyes⟩
      · exact ih hxs hx₀ hothers ⟨b, hrest⟩

theorem Steady.findM? (h : ∀ x ∈ xs, Steady counts E (p x)) : Steady counts E (xs.findM? p) := by
  induction xs with
  | nil => exact .pure none
  | cons x xs ih =>
    rw [List.findM?]
    refine (h x (by simp)).bind fun b _ => ?_
    cases b with
    | true => exact .pure (some x)
    | false => exact ih fun x hx => h x (by simp [hx])

theorem Steady.fresh_findM? (h : ∀ x ∈ xs, Steady counts E (p x)) :
    fresh (xs.findM? p) = xs.findM? fun x => fresh (p x) := by
  induction xs with
  | nil => rfl
  | cons x xs ih =>
    obtain ⟨hx, hxs⟩ := List.forall_mem_cons.mp h
    rw [List.findM?, List.findM?, hx.fresh_bind fun b _ => by
      cases b with
      | true => exact .pure (some x)
      | false => exact .findM? hxs]
    congr 1
    funext b
    cases b with
    | true => rfl
    | false => exact ih hxs

/-- The first one that passes the test, if there is one. -/
theorem findM?_ok {P : α → Prop} (h : ∀ x ∈ xs, Steady counts E (p x))
    (hP : ∀ x ∈ xs, Decides (p x) (P x)) {r : Option α} (hr : fresh (xs.findM? p) = .ok r) :
    match r with
    | none => ∀ x ∈ xs, ¬P x
    | some x => ∃ before after, xs = before ++ x :: after ∧ P x ∧ ∀ y ∈ before, ¬P y := by
  induction xs with
  | nil =>
    obtain rfl : none = r := by simpa [List.findM?] using hr
    simp
  | cons x xs ih =>
    obtain ⟨hx, hxs⟩ := List.forall_mem_cons.mp h
    obtain ⟨hPx, hPxs⟩ := List.forall_mem_cons.mp hP
    rw [List.findM?] at hr
    obtain ⟨b, hb, hr⟩ := hx.bind_ok (fun b _ => by
      cases b with
      | true => exact .pure (some x)
      | false => exact .findM? hxs) hr
    have hPx := hPx b hb
    cases b with
    | true =>
      obtain rfl : some x = r := by simpa using hr
      exact ⟨[], xs, rfl, hPx.mp rfl, by simp⟩
    | false =>
      have hn : ¬P x := fun h => Bool.false_ne_true (hPx.mpr h)
      have hr := ih hxs hPxs hr
      cases r with
      | none => simpa [hn] using hr
      | some y =>
        obtain ⟨before, after, rfl, hy, hbefore⟩ := hr
        exact ⟨x :: before, after, rfl, hy, by simpa [hn] using hbefore⟩

end Tests

/-! ### Lists of computations -/

section Computations

variable {known : κ → Except ε υ} {E : ε → Prop} {α β : Type} {xs : List α}

theorem Steady.mapM_answers {f : α → Remembering κ υ ε β} (h : ∀ x ∈ xs, Steady known E (f x))
    (ha : ∀ x ∈ xs, Answers (f x)) : Answers (xs.mapM f) := by
  induction xs with
  | nil => exact answers_pure []
  | cons x xs ih =>
    obtain ⟨hx, hxs⟩ := List.forall_mem_cons.mp h
    obtain ⟨hax, haxs⟩ := List.forall_mem_cons.mp ha
    rw [List.mapM_cons]
    refine hx.answers_bind (fun b _ => (Steady.mapM hxs).bind fun bs _ => .pure (b :: bs)) hax
      fun b _ => ?_
    exact (Steady.mapM hxs).answers_bind (fun bs _ => .pure (b :: bs)) (ih hxs haxs) fun _ _ =>
      answers_pure _

end Computations

section Collections

variable {ν : Type} {counts : MemoKey ν → Except QueryError (List ν)} {E : QueryError → Prop}
variable {α β : Type} {xs : List α}

theorem Steady.collectM {f : α → Eval ν (List β)} (h : ∀ x ∈ xs, Steady counts E (f x)) :
    Steady counts E (collectM f xs) := by
  induction xs with
  | nil => exact .pure []
  | cons x xs ih =>
    exact (h x (by simp)).bind fun ys _ =>
      (ih fun x hx => h x (by simp [hx])).bind fun zs _ => .pure (ys ++ zs)

theorem Steady.fresh_collectM_cons {f : α → Eval ν (List β)} {x : α}
    (h : ∀ y ∈ x :: xs, Steady counts E (f y)) :
    fresh (Query.collectM f (x :: xs)) =
      fresh (f x) >>= fun ys => (fun zs => ys ++ zs) <$> fresh (Query.collectM f xs) := by
  obtain ⟨hx, hxs⟩ := List.forall_mem_cons.mp h
  have hrest : Steady counts E (Query.collectM f xs) := .collectM hxs
  rw [Query.collectM, hx.fresh_bind fun ys _ => hrest.bind fun zs _ => .pure (ys ++ zs)]
  congr 1
  funext ys
  rw [← hrest.fresh_map, map_eq_pure_bind]

/-- Every computation gave a list, and these lists are what was collected. -/
theorem collectM_ok {f : α → Eval ν (List β)} (h : ∀ x ∈ xs, Steady counts E (f x)) {ys : List β}
    (hr : fresh (collectM f xs) = .ok ys) :
    ∃ lists, List.Forall₂ (fun x l => fresh (f x) = .ok l) xs lists ∧ ys = lists.flatten := by
  induction xs generalizing ys with
  | nil =>
    obtain rfl : [] = ys := by simpa [Query.collectM] using hr
    exact ⟨[], .nil, rfl⟩
  | cons x xs ih =>
    obtain ⟨hx, hxs⟩ := List.forall_mem_cons.mp h
    rw [Query.collectM] at hr
    obtain ⟨zs, hz, hr⟩ := hx.bind_ok
      (fun zs _ => (Steady.collectM hxs).bind fun ws _ => .pure (zs ++ ws)) hr
    obtain ⟨ws, hw, hr⟩ := (Steady.collectM hxs).bind_ok (fun ws _ => .pure (zs ++ ws)) hr
    obtain rfl : zs ++ ws = ys := by simpa using hr
    obtain ⟨lists, hlists, rfl⟩ := ih hxs hw
    exact ⟨zs :: lists, .cons hz hlists, rfl⟩

theorem mem_flatten_of_forall₂ {P : α → β → Prop} {lists : List (List β)}
    (h : List.Forall₂ (fun x l => ∀ y, y ∈ l ↔ P x y) xs lists) (y : β) :
    y ∈ lists.flatten ↔ ∃ x ∈ xs, P x y := by
  induction h with
  | nil => simp
  | cons hl _ ih => simp [hl, ← ih]

theorem Collects.collectM {f : α → Eval ν (List β)} {P : α → β → Prop}
    (h : ∀ x ∈ xs, Steady counts E (f x)) (hP : ∀ x ∈ xs, Collects (f x) (P x)) :
    Collects (collectM f xs) fun y => ∃ x ∈ xs, P x y := by
  intro ys hr
  obtain ⟨lists, hlists, rfl⟩ := collectM_ok h hr
  refine mem_flatten_of_forall₂ (((List.forall₂_and_left _ _).mpr ⟨hP, hlists⟩).imp ?_)
  exact fun x l ⟨hx, hl⟩ => hx l hl

end Collections

end DomQuery
