import DomQuery.Proofs.Query.Steady
import Mathlib.Logic.Equiv.Defs

/-!
# Other keys

A computation that remembers under other keys is the same computation, as long as
different keys stay different. `renamed` runs a computation so. It goes through
everything that computations are put together from, and it does not show in the
outcome.
-/

namespace DomQuery

variable {κ υ ε α β : Type}

/-- What is remembered, under other keys. -/
def rekey (g : κ → κ) (memo : List (κ × υ)) : List (κ × υ) :=
  memo.map fun entry => (g entry.1, entry.2)

@[simp]
theorem rekey_rekey_symm (g : Equiv.Perm κ) (memo : List (κ × υ)) :
    rekey g (rekey g.symm memo) = memo := by
  simp [rekey, Function.comp_def]

@[simp]
theorem rekey_symm_rekey (g : Equiv.Perm κ) (memo : List (κ × υ)) :
    rekey g.symm (rekey g memo) = memo := by
  simp [rekey, Function.comp_def]

/-- The computation with other keys. -/
def renamed (g : Equiv.Perm κ) (x : Remembering κ υ ε α) : Remembering κ υ ε α :=
  .mk fun memo =>
    let (outcome, memo) := x.run.run (rekey g.symm memo)
    (outcome, rekey g memo)

variable {g : Equiv.Perm κ}

theorem run_renamed (x : Remembering κ υ ε α) (memo : List (κ × υ)) :
    (renamed g x).run.run memo =
      ((x.run.run (rekey g.symm memo)).1, rekey g (x.run.run (rekey g.symm memo)).2) :=
  rfl

theorem eq_of_run_eq {x y : Remembering κ υ ε α} (h : ∀ memo, x.run.run memo = y.run.run memo) :
    x = y :=
  funext h

/-- The keys do not show in an outcome. -/
@[simp]
theorem fresh_renamed (x : Remembering κ υ ε α) : fresh (renamed g x) = fresh x :=
  rfl

@[simp]
theorem renamed_pure (a : α) : renamed g (pure a : Remembering κ υ ε α) = pure a :=
  eq_of_run_eq fun memo => by rw [run_renamed, run_pure, run_pure, rekey_rekey_symm]

@[simp]
theorem renamed_throw (e : ε) : renamed g (throw e : Remembering κ υ ε α) = throw e :=
  eq_of_run_eq fun memo => by rw [run_renamed, run_throw, run_throw, rekey_rekey_symm]

@[simp]
theorem renamed_bind (x : Remembering κ υ ε α) (f : α → Remembering κ υ ε β) :
    renamed g (x >>= f) = renamed g x >>= fun a => renamed g (f a) := by
  refine eq_of_run_eq fun memo => ?_
  rw [run_renamed, run_bind, run_bind, run_renamed]
  rcases x.run.run (rekey g.symm memo) with ⟨e | a, memo⟩
  · rfl
  · simp only [run_renamed, rekey_symm_rekey]

@[simp]
theorem renamed_map (f : α → β) (x : Remembering κ υ ε α) :
    renamed g (f <$> x) = f <$> renamed g x := by
  rw [map_eq_pure_bind, map_eq_pure_bind, renamed_bind]
  simp only [renamed_pure]

theorem renamed_tryCatch (x : Remembering κ υ ε α) (handle : ε → Remembering κ υ ε α) :
    renamed g (tryCatch x handle) = tryCatch (renamed g x) fun e => renamed g (handle e) := by
  refine eq_of_run_eq fun memo => ?_
  rw [run_renamed, run_tryCatch, run_tryCatch, run_renamed]
  rcases x.run.run (rekey g.symm memo) with ⟨e | a, memo⟩
  · simp only [run_renamed, rekey_symm_rekey]
  · rfl

theorem renamed_ite (p : Prop) [Decidable p] (x y : Remembering κ υ ε α) :
    renamed g (if p then x else y) = if p then renamed g x else renamed g y :=
  apply_ite _ _ _ _

/-- What is remembered under one key is remembered under the other. -/
theorem renamed_remembered [DecidableEq κ] (key : κ) (compute : Remembering κ υ ε υ) :
    renamed g (remembered key compute) = remembered (g key) (renamed g compute) := by
  refine eq_of_run_eq fun memo => ?_
  have hfind : (rekey g.symm memo).find? (fun entry => decide (entry.1 = key)) =
      (memo.find? fun entry => decide (entry.1 = g key)).map fun entry =>
        (g.symm entry.1, entry.2) := by
    rw [rekey, List.find?_map]
    simp only [Function.comp_def, Equiv.symm_apply_eq]
  rw [run_renamed, run_remembered, run_remembered, hfind]
  cases memo.find? fun entry => decide (entry.1 = g key) with
  | some entry => rw [Option.map_some, rekey_rekey_symm]
  | none =>
    simp only [Option.map_none, run_renamed]
    rcases compute.run.run (rekey g.symm memo) with ⟨e | a, memo⟩
    · rfl
    · rfl

section Lists

variable {xs : List α}

theorem renamed_filterM (p : α → Remembering κ υ ε Bool) :
    renamed g (xs.filterM p) = xs.filterM fun x => renamed g (p x) := by
  induction xs with
  | nil => exact renamed_pure []
  | cons x xs ih => simp only [filterM_cons, renamed_bind, renamed_map, ih]

theorem renamed_anyM (p : α → Remembering κ υ ε Bool) :
    renamed g (xs.anyM p) = xs.anyM fun x => renamed g (p x) := by
  induction xs with
  | nil => exact renamed_pure false
  | cons x xs ih =>
    rw [List.anyM, List.anyM, renamed_bind]
    congr 1
    funext b
    cases b with
    | true => exact renamed_pure true
    | false => exact ih

theorem renamed_allM (p : α → Remembering κ υ ε Bool) :
    renamed g (xs.allM p) = xs.allM fun x => renamed g (p x) := by
  induction xs with
  | nil => exact renamed_pure true
  | cons x xs ih =>
    rw [List.allM, List.allM, renamed_bind]
    congr 1
    funext b
    cases b with
    | true => exact ih
    | false => exact renamed_pure false

theorem renamed_findM? (p : α → Remembering κ υ ε Bool) :
    renamed g (xs.findM? p) = xs.findM? fun x => renamed g (p x) := by
  induction xs with
  | nil => exact renamed_pure none
  | cons x xs ih =>
    rw [List.findM?, List.findM?, renamed_bind]
    congr 1
    funext b
    cases b with
    | true => exact renamed_pure (some x)
    | false => exact ih

theorem renamed_mapM (f : α → Remembering κ υ ε β) :
    renamed g (xs.mapM f) = xs.mapM fun x => renamed g (f x) := by
  induction xs with
  | nil => exact renamed_pure []
  | cons x xs ih => simp only [List.mapM_cons, renamed_bind, renamed_pure, ih]

end Lists

end DomQuery
