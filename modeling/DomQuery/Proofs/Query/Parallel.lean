import DomQuery.Proofs.Query.Lockstep

/-!
# Evaluations that part by failing

Two evaluations run in parallel when, from any memo, they come to related
results or fail with the same error, and leave the same memo. The first one may
leave the other behind, but only by an error that excuses it. So whatever the
first one comes to, the second one comes to as well; which errors may be met,
and which of them are excuses, is said by two predicates.

* `Parallel.bind`, `Parallel.remembered`, `Parallel.filterM` and so on: what is
  put together from such parts runs in parallel.
* `Parallel.fresh_cases`: what that says of the outcomes.
-/

namespace DomQuery.Query

variable {ν α β α' β' : Type}

/-- The first run fails in a way that excuses it; or both fail with the same
error, or come to related results, with the same memo. -/
inductive ParallelRun (excuse meets : QueryError → Prop) (R : α → β → Prop) :
    Except QueryError α × Memo ν → Except QueryError β × Memo ν → Prop
  | ok {a : α} {b : β} {memo : Memo ν} (h : R a b) :
      ParallelRun excuse meets R (.ok a, memo) (.ok b, memo)
  | error {e : QueryError} {memo : Memo ν} (h : meets e) :
      ParallelRun excuse meets R (.error e, memo) (.error e, memo)
  | excused {e : QueryError} {memo : Memo ν} {run : Except QueryError β × Memo ν}
      (h : excuse e) : ParallelRun excuse meets R (.error e, memo) run

/-- The evaluations run in parallel from every memo, unless the first one is
excused. -/
def Parallel (excuse meets : QueryError → Prop) (R : α → β → Prop) (x : Eval ν α)
    (y : Eval ν β) : Prop :=
  ∀ memo, ParallelRun excuse meets R (x.run.run memo) (y.run.run memo)

/-- One list twice, of nodes that satisfy `P`. -/
def Shared (P : α → Prop) (xs ys : List α) : Prop :=
  ys = xs ∧ ∀ x ∈ xs, P x

namespace Shared

variable {P : α → Prop} {xs ys : List α}

theorem eq (h : Shared P xs ys) : ys = xs :=
  h.1

theorem mem (h : Shared P xs ys) : ∀ x ∈ xs, P x :=
  h.2

theorem nil : Shared P [] [] :=
  ⟨rfl, by simp⟩

theorem cons {x : α} (hx : P x) (h : Shared P xs ys) : Shared P (x :: xs) (x :: ys) :=
  ⟨by rw [h.eq], List.forall_mem_cons.mpr ⟨hx, h.mem⟩⟩

theorem append {xs' ys' : List α} (h : Shared P xs ys) (h' : Shared P xs' ys') :
    Shared P (xs ++ xs') (ys ++ ys') :=
  ⟨by rw [h.eq, h'.eq], fun x hx => (List.mem_append.mp hx).elim (h.mem x) (h'.mem x)⟩

theorem forall₂ (h : Shared P xs ys) : List.Forall₂ (fun x y => y = x ∧ P x) xs ys := by
  obtain ⟨rfl, hP⟩ := h
  exact List.forall₂_same.mpr fun x hx => ⟨rfl, hP x hx⟩

theorem of_subset {zs : List α} (h : ∀ z ∈ zs, P z) : Shared P zs zs :=
  ⟨rfl, h⟩

/-- Tests that agree on the list leave the same of it. -/
theorem filter {p q : α → Bool} (h : Shared P xs ys) (hpq : ∀ x, P x → q x = p x) :
    Shared P (xs.filter p) (ys.filter q) := by
  obtain ⟨rfl, hP⟩ := h
  refine ⟨List.filter_congr fun x hx => hpq x (hP x hx), fun x hx => ?_⟩
  exact hP x (List.mem_filter.mp hx).1

end Shared

namespace Parallel

variable {excuse meets : QueryError → Prop} {R : α → β → Prop} {S : α' → β' → Prop}
variable {x : Eval ν α} {y : Eval ν β}

protected theorem pure {a : α} {b : β} (h : R a b) :
    Parallel excuse meets R (pure a : Eval ν α) (pure b) :=
  fun _ => .ok h

protected theorem throw {e : QueryError} (h : meets e) :
    Parallel excuse meets R (throw e : Eval ν α) (throw e) :=
  fun _ => .error h

protected theorem excused {e : QueryError} (h : excuse e) (y : Eval ν β) :
    Parallel excuse meets R (throw e : Eval ν α) y :=
  fun _ => .excused h

protected theorem bind {f : α → Eval ν α'} {g : β → Eval ν β'} (h : Parallel excuse meets R x y)
    (hf : ∀ a b, R a b → Parallel excuse meets S (f a) (g b)) :
    Parallel excuse meets S (x >>= f) (y >>= g) := by
  intro memo
  rw [run_bind, run_bind]
  have hrun := h memo
  revert hrun
  generalize x.run.run memo = r
  generalize y.run.run memo = s
  rintro (hR | he | he)
  · exact hf _ _ hR _
  · exact .error he
  · exact .excused he

protected theorem map {f : α → α'} {g : β → β'} (h : Parallel excuse meets R x y)
    (hf : ∀ a b, R a b → S (f a) (g b)) : Parallel excuse meets S (f <$> x) (g <$> y) := by
  rw [map_eq_pure_bind, map_eq_pure_bind]
  exact h.bind fun a b hab => .pure (hf a b hab)

/-- After equal results, the two go on with the same one. -/
theorem bind_eq {y : Eval ν α} {f : α → Eval ν α'} {g : α → Eval ν β'}
    (h : Parallel excuse meets Eq x y) (hf : ∀ a, Parallel excuse meets S (f a) (g a)) :
    Parallel excuse meets S (x >>= f) (y >>= g) := by
  refine h.bind ?_
  rintro a _ rfl
  exact hf a

/-- An error that is forgiven on both sides is no excuse. -/
protected theorem tryCatch {handle : QueryError → Eval ν α} {handle' : QueryError → Eval ν β}
    (h : Parallel excuse meets R x y)
    (hmeets : ∀ e, meets e → Parallel excuse meets R (handle e) (handle' e))
    (hexcuse : ∀ e, excuse e → handle e = throw e) :
    Parallel excuse meets R (tryCatch x handle) (tryCatch y handle') := by
  intro memo
  rw [run_tryCatch, run_tryCatch]
  have hrun := h memo
  revert hrun
  generalize x.run.run memo = r
  generalize y.run.run memo = s
  rintro (hR | he | he)
  · exact .ok hR
  · exact hmeets _ he _
  · dsimp only
    rw [hexcuse _ he]
    exact .excused he

protected theorem remembered [DecidableEq ν] {key : MemoKey ν} {x y : Eval ν (List ν)}
    (h : Parallel excuse meets Eq x y) :
    Parallel excuse meets Eq (DomQuery.remembered key x) (DomQuery.remembered key y) := by
  intro memo
  rw [run_remembered, run_remembered]
  cases memo.find? fun entry => decide (entry.1 = key) with
  | some entry => exact .ok rfl
  | none =>
    dsimp only
    have hrun := h memo
    revert hrun
    generalize x.run.run memo = r
    generalize y.run.run memo = s
    rintro (rfl | he | he)
    · exact .ok rfl
    · exact .error he
    · exact .excused he

/-- The first outcome is an excuse, or the two are the same failure or related. -/
theorem fresh_cases (h : Parallel excuse meets R x y) :
    (∃ a b, fresh x = .ok a ∧ fresh y = .ok b ∧ R a b) ∨
      (∃ e, fresh x = .error e ∧ fresh y = .error e ∧ meets e) ∨
      ∃ e, fresh x = .error e ∧ excuse e := by
  have hrun := h []
  unfold fresh
  revert hrun
  generalize x.run.run [] = r
  generalize y.run.run [] = s
  rintro (hR | he | he)
  · exact .inl ⟨_, _, rfl, rfl, hR⟩
  · exact .inr (.inl ⟨_, rfl, rfl, he⟩)
  · exact .inr (.inr ⟨_, rfl, he⟩)

/-- Where nothing is an excuse, the outcomes are the same. -/
theorem fresh_eq {y : Eval ν α} (h : Parallel (fun _ => False) meets Eq x y) :
    fresh x = fresh y := by
  rcases h.fresh_cases with ⟨a, b, ha, hb, rfl⟩ | ⟨e, hx, hy, -⟩ | ⟨-, -, h⟩
  · rw [ha, hb]
  · rw [hx, hy]
  · exact h.elim

end Parallel

/-! ### Lists -/

namespace Parallel

variable {κ κ' : Type} {excuse meets : QueryError → Prop} {P : κ → Prop} {xs ys : List κ}

section Tests

variable {p q : κ → Eval ν Bool} (h : Shared P xs ys)
variable (hpq : ∀ x, P x → Parallel excuse meets Eq (p x) (q x))
include h hpq

protected theorem anyM : Parallel excuse meets Eq (xs.anyM p) (ys.anyM q) := by
  obtain ⟨rfl, hP⟩ := h
  induction ys with
  | nil => exact .pure rfl
  | cons x xs ih =>
    obtain ⟨hx, hxs⟩ := List.forall_mem_cons.mp hP
    rw [List.anyM, List.anyM]
    refine (hpq x hx).bind_eq fun b => ?_
    cases b with
    | true => exact .pure rfl
    | false => exact ih hxs

protected theorem allM : Parallel excuse meets Eq (xs.allM p) (ys.allM q) := by
  obtain ⟨rfl, hP⟩ := h
  induction ys with
  | nil => exact .pure rfl
  | cons x xs ih =>
    obtain ⟨hx, hxs⟩ := List.forall_mem_cons.mp hP
    rw [List.allM, List.allM]
    refine (hpq x hx).bind_eq fun b => ?_
    cases b with
    | true => exact ih hxs
    | false => exact .pure rfl

protected theorem filterM :
    Parallel excuse meets (Shared P) (xs.filterM p) (ys.filterM q) := by
  obtain ⟨rfl, hP⟩ := h
  induction ys with
  | nil => exact .pure .nil
  | cons x xs ih =>
    obtain ⟨hx, hxs⟩ := List.forall_mem_cons.mp hP
    rw [filterM_cons, filterM_cons]
    refine (hpq x hx).bind_eq fun b => (ih hxs).map fun zs ws hzs => ?_
    cases b with
    | true => exact hzs.cons hx
    | false => exact hzs

protected theorem findM? : Parallel excuse meets (fun r s => s = r ∧ ∀ x ∈ r, P x)
    (xs.findM? p) (ys.findM? q) := by
  obtain ⟨rfl, hP⟩ := h
  induction ys with
  | nil => exact .pure ⟨rfl, by simp⟩
  | cons x xs ih =>
    obtain ⟨hx, hxs⟩ := List.forall_mem_cons.mp hP
    rw [List.findM?, List.findM?]
    refine (hpq x hx).bind_eq fun b => ?_
    cases b with
    | true => exact .pure ⟨rfl, by simpa using hx⟩
    | false => exact ih hxs

end Tests

protected theorem collectM {μ : Type} {Q : μ → Prop} {R : κ → κ' → Prop} {xs : List κ}
    {ys : List κ'} {f : κ → Eval ν (List μ)} {g : κ' → Eval ν (List μ)} (h : List.Forall₂ R xs ys)
    (hfg : ∀ x y, R x y → Parallel excuse meets (Shared Q) (f x) (g y)) :
    Parallel excuse meets (Shared Q) (collectM f xs) (collectM g ys) := by
  induction h with
  | nil => exact .pure .nil
  | cons hR _ ih =>
    refine (hfg _ _ hR).bind fun zs zs' hzs => ih.bind fun ws ws' hws => .pure ?_
    exact hzs.append hws

theorem collectM_shared {μ : Type} {Q : μ → Prop} {f g : κ → Eval ν (List μ)} (h : Shared P xs ys)
    (hfg : ∀ x, P x → Parallel excuse meets (Shared Q) (f x) (g x)) :
    Parallel excuse meets (Shared Q) (collectM f xs) (collectM g ys) := by
  refine .collectM h.forall₂ ?_
  rintro x _ ⟨rfl, hx⟩
  exact hfg _ hx

protected theorem mapM {μ μ' : Type} {R : κ → κ' → Prop} {S : μ → μ' → Prop} {xs : List κ}
    {ys : List κ'} {f : κ → Eval ν μ} {g : κ' → Eval ν μ'} (h : List.Forall₂ R xs ys)
    (hfg : ∀ x y, R x y → Parallel excuse meets S (f x) (g y)) :
    Parallel excuse meets (List.Forall₂ S) (xs.mapM f) (ys.mapM g) := by
  induction h with
  | nil => exact .pure .nil
  | cons hR _ ih =>
    rw [List.mapM_cons, List.mapM_cons]
    exact (hfg _ _ hR).bind fun z z' hz => ih.bind fun zs zs' hzs => .pure (.cons hz hzs)

protected theorem foldlM {S : α → β → Prop} {f : α → κ → Eval ν α} {g : β → κ → Eval ν β}
    (h : Shared P xs ys)
    (hfg : ∀ a b, S a b → ∀ x, P x → Parallel excuse meets S (f a x) (g b x)) {a : α} {b : β}
    (hab : S a b) : Parallel excuse meets S (xs.foldlM f a) (ys.foldlM g b) := by
  obtain ⟨rfl, hP⟩ := h
  induction ys generalizing a b with
  | nil => exact .pure hab
  | cons x xs ih =>
    obtain ⟨hx, hxs⟩ := List.forall_mem_cons.mp hP
    rw [List.foldlM_cons, List.foldlM_cons]
    exact (hfg a b hab x hx).bind fun a' b' hab' => ih hab' hxs

end Parallel

end DomQuery.Query
