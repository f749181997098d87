import DomQuery.Proofs.Query.Steady

/-!
# Evaluations in lockstep

Two evaluations run in lockstep when, from any memo, both fail with the same
error or both come to results that are related, and leave the same memo.
Evaluations that are put together from such parts are in lockstep again
(`Lockstep.bind` and what follows from it), and with equal results they are the
same evaluation (`Lockstep.eq`).
-/

namespace DomQuery.Query

variable {ν α β α' β' : Type}

/-- The same failure, or related results, with the same memo. -/
inductive SameRun (R : α → β → Prop) :
    Except QueryError α × Memo ν → Except QueryError β × Memo ν → Prop
  | ok {a : α} {b : β} {memo : Memo ν} (h : R a b) : SameRun R (.ok a, memo) (.ok b, memo)
  | error {e : QueryError} {memo : Memo ν} : SameRun R (.error e, memo) (.error e, memo)

/-- The evaluations run alike from every memo. -/
def Lockstep (R : α → β → Prop) (x : Eval ν α) (y : Eval ν β) : Prop :=
  ∀ memo, SameRun R (x.run.run memo) (y.run.run memo)

namespace Lockstep

variable {R : α → β → Prop} {S : α' → β' → Prop} {x : Eval ν α} {y : Eval ν β}

protected theorem pure {a : α} {b : β} (h : R a b) : Lockstep R (pure a : Eval ν α) (pure b) :=
  fun _ => .ok h

protected theorem refl (x : Eval ν α) : Lockstep Eq x x := by
  intro memo
  rcases x.run.run memo with ⟨e | a, memo⟩
  · exact .error
  · exact .ok rfl

theorem of_eq {x y : Eval ν α} (h : x = y) : Lockstep Eq x y :=
  h ▸ .refl x

/-- With equal results it is one and the same evaluation. -/
protected theorem eq {x y : Eval ν α} (h : Lockstep Eq x y) : x = y := by
  funext memo
  change x.run.run memo = y.run.run memo
  have hrun := h memo
  revert hrun
  generalize x.run.run memo = r
  generalize y.run.run memo = s
  rintro (rfl | _) <;> rfl

theorem mono {R' : α → β → Prop} (h : Lockstep R x y) (hR : ∀ a b, R a b → R' a b) :
    Lockstep R' x y := by
  intro memo
  have hrun := h memo
  revert hrun
  generalize x.run.run memo = r
  generalize y.run.run memo = s
  rintro (h | _)
  · exact .ok (hR _ _ h)
  · exact .error

protected theorem bind {f : α → Eval ν α'} {g : β → Eval ν β'} (h : Lockstep R x y)
    (hf : ∀ a b, R a b → Lockstep S (f a) (g b)) : Lockstep S (x >>= f) (y >>= g) := by
  intro memo
  rw [run_bind, run_bind]
  have hrun := h memo
  revert hrun
  generalize x.run.run memo = r
  generalize y.run.run memo = s
  rintro (hR | _)
  · exact hf _ _ hR _
  · exact .error

end Lockstep

/-! ### Lists -/

section Lists

variable {κ : Type} {xs : List κ}

theorem anyM_congr {p q : κ → Eval ν Bool} (h : ∀ x ∈ xs, p x = q x) :
    xs.anyM p = xs.anyM q := by
  induction xs with
  | nil => rfl
  | cons x xs ih =>
    obtain ⟨hx, hxs⟩ := List.forall_mem_cons.mp h
    rw [List.anyM, List.anyM, hx, ih hxs]

theorem allM_congr {p q : κ → Eval ν Bool} (h : ∀ x ∈ xs, p x = q x) :
    xs.allM p = xs.allM q := by
  induction xs with
  | nil => rfl
  | cons x xs ih =>
    obtain ⟨hx, hxs⟩ := List.forall_mem_cons.mp h
    rw [List.allM, List.allM, hx, ih hxs]

theorem collectM_congr {β : Type} {f g : κ → Eval ν (List β)} (h : ∀ x ∈ xs, f x = g x) :
    collectM f xs = collectM g xs := by
  induction xs with
  | nil => rfl
  | cons x xs ih =>
    obtain ⟨hx, hxs⟩ := List.forall_mem_cons.mp h
    rw [collectM, collectM, hx, ih hxs]

/-- Tests that agree on a list leave the same of it, and all of that satisfies
what the whole list does. -/
theorem lockstep_filterM {P : κ → Prop} {p q : κ → Eval ν Bool} (h : ∀ x ∈ xs, p x = q x)
    (hP : ∀ x ∈ xs, P x) :
    Lockstep (fun ys zs => ys = zs ∧ ∀ y ∈ ys, P y) (xs.filterM p) (xs.filterM q) := by
  rw [filterM_congr h]
  clear h
  induction xs with
  | nil => exact .pure ⟨rfl, hP⟩
  | cons x xs ih =>
    obtain ⟨hx, hxs⟩ := List.forall_mem_cons.mp hP
    rw [filterM_cons]
    refine (Lockstep.refl (q x)).bind ?_
    rintro b _ rfl
    rw [map_eq_pure_bind]
    refine (ih hxs).bind ?_
    rintro ys _ ⟨rfl, hys⟩
    refine .pure ⟨rfl, ?_⟩
    cases b with
    | true => exact List.forall_mem_cons.mpr ⟨hx, hys⟩
    | false => exact hys

theorem lockstep_collectM {α α' β : Type} {P : β → Prop} {f : α → Eval ν (List β)}
    {g : α' → Eval ν (List β)} {xs : List α} {xs' : List α'}
    (h : List.Forall₂
      (fun x x' => Lockstep (fun ys zs => ys = zs ∧ ∀ y ∈ ys, P y) (f x) (g x')) xs xs') :
    Lockstep (fun ys zs => ys = zs ∧ ∀ y ∈ ys, P y) (collectM f xs) (collectM g xs') := by
  induction h with
  | nil => exact .pure ⟨rfl, by simp⟩
  | cons hx _ ih =>
    refine hx.bind ?_
    rintro ys _ ⟨rfl, hys⟩
    refine ih.bind ?_
    rintro zs _ ⟨rfl, hzs⟩
    refine .pure ⟨rfl, fun y hy => ?_⟩
    exact (List.mem_append.mp hy).elim (hys y) (hzs y)

theorem lockstep_mapM {α β β' : Type} {R : β → β' → Prop} {f : α → Eval ν β} {g : α → Eval ν β'}
    {xs : List α} (h : ∀ x ∈ xs, Lockstep R (f x) (g x)) :
    Lockstep (List.Forall₂ R) (xs.mapM f) (xs.mapM g) := by
  induction xs with
  | nil => exact .pure .nil
  | cons x xs ih =>
    obtain ⟨hx, hxs⟩ := List.forall_mem_cons.mp h
    rw [List.mapM_cons, List.mapM_cons]
    refine hx.bind fun b b' hb => (ih hxs).bind fun bs bs' hbs => .pure (.cons hb hbs)

end Lists

end DomQuery.Query
