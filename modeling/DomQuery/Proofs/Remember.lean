import DomQuery.Proofs.Outcome
import DomQuery.Remember

/-!
# What is remembered does not matter

A computation reads and extends what is remembered. As long as that is nothing
but what the computation would come to anyway, it only saves time: the outcome
is the one of a computation that starts with nothing remembered. `Steady` says
so of one computation, and computations that are put together from steady ones
are steady again.

* `Steady.bind`, `Steady.tryCatch` and `Steady.remembered` are the closure
  properties that the others follow from.
* `ComesTo` says in addition what a computation comes to, which is put together
  from what its parts come to.
-/

namespace DomQuery

variable {κ υ ε : Type}

/-- Everything that is remembered is what `known` says. -/
def Recalls (known : κ → Except ε υ) (memo : List (κ × υ)) : Prop :=
  ∀ entry ∈ memo, known entry.1 = .ok entry.2

theorem recalls_nil (known : κ → Except ε υ) : Recalls known [] := by
  simp [Recalls]

/-- The computation comes out the same whatever is remembered, as long as that
is what `known` says; it remembers nothing else, and it fails in ways that `E`
allows only. -/
structure Steady {α : Type} (known : κ → Except ε υ) (E : ε → Prop)
    (x : Remembering κ υ ε α) : Prop where
  outcome : ∀ {memo}, Recalls known memo → (x.run.run memo).1 = fresh x
  sound : ∀ {memo}, Recalls known memo → Recalls known (x.run.run memo).2
  error : ∀ {e}, fresh x = .error e → E e

/-- The computation does not fail. -/
def Answers {α : Type} (x : Remembering κ υ ε α) : Prop :=
  ∃ a, fresh x = .ok a

section Basic

variable {α β : Type}

@[simp]
theorem fresh_pure (a : α) : fresh (pure a : Remembering κ υ ε α) = .ok a :=
  rfl

@[simp]
theorem fresh_throw (e : ε) : fresh (throw e : Remembering κ υ ε α) = .error e :=
  rfl

theorem answers_pure (a : α) : Answers (pure a : Remembering κ υ ε α) :=
  ⟨a, rfl⟩

theorem run_remembered [DecidableEq κ] (key : κ) (compute : Remembering κ υ ε υ)
    (memo : List (κ × υ)) :
    (remembered key compute).run.run memo =
      match memo.find? fun entry => entry.1 = key with
      | some entry => (.ok entry.2, memo)
      | none =>
        match compute.run.run memo with
        | (.ok selected, memo) => (.ok selected, (key, selected) :: memo)
        | (.error e, memo) => (.error e, memo) := by
  rw [remembered, run_bind]
  change StateT.run (ExceptT.run (match memo.find? fun entry => entry.1 = key with
    | some entry => _
    | none => _)) memo = _
  cases memo.find? (fun entry => decide (entry.1 = key)) with
  | some entry => rfl
  | none =>
    simp only [run_bind]
    rcases compute.run.run memo with ⟨e | a, memo⟩
    · rfl
    · rfl

end Basic

namespace Steady

variable {known : κ → Except ε υ} {E : ε → Prop}
variable {α β γ : Type} {x : Remembering κ υ ε α}

protected theorem pure (a : α) : Steady known E (pure a) where
  outcome _ := rfl
  sound h := h
  error h := by simp at h

protected theorem throw {e : ε} (he : E e) : Steady known E (throw e : Remembering κ υ ε α) where
  outcome _ := rfl
  sound h := h
  error h := by
    obtain rfl : e = _ := by simpa using h
    exact he

protected theorem mono {E' : ε → Prop} (hx : Steady known E x) (h : ∀ e, E e → E' e) :
    Steady known E' x where
  outcome := hx.outcome
  sound := hx.sound
  error he := h _ (hx.error he)

/-- To allow only certain errors, it is enough to look at the one that it fails with. -/
theorem of_error {E' : ε → Prop} (hx : Steady known E x) (h : ∀ e, fresh x = .error e → E' e) :
    Steady known E' x where
  outcome := hx.outcome
  sound := hx.sound
  error he := h _ he

theorem outcome_bind {f : α → Remembering κ υ ε β} (hx : Steady known E x)
    (hf : ∀ a, fresh x = .ok a → Steady known E (f a)) {memo : List (κ × υ)}
    (h : Recalls known memo) :
    ((x >>= f).run.run memo).1 = fresh x >>= fun a => fresh (f a) := by
  have hs := hx.sound h
  have ho := hx.outcome h
  rw [run_bind]
  rcases hr : x.run.run memo with ⟨e | a, memo⟩ <;> rw [hr] at hs ho
  · rw [← ho]
    rfl
  · rw [← ho]
    exact (hf a ho.symm).outcome hs

/-- The steps of a sequence only matter by their outcomes. -/
theorem fresh_bind {f : α → Remembering κ υ ε β} (hx : Steady known E x)
    (hf : ∀ a, fresh x = .ok a → Steady known E (f a)) :
    fresh (x >>= f) = fresh x >>= fun a => fresh (f a) :=
  hx.outcome_bind hf (recalls_nil known)

protected theorem bind {f : α → Remembering κ υ ε β} (hx : Steady known E x)
    (hf : ∀ a, fresh x = .ok a → Steady known E (f a)) : Steady known E (x >>= f) where
  outcome h := by
    rw [hx.fresh_bind hf, hx.outcome_bind hf h]
  sound {memo} h := by
    have hs := hx.sound h
    have ho := hx.outcome h
    rw [run_bind]
    rcases hr : x.run.run memo with ⟨e | a, memo⟩ <;> rw [hr] at hs ho
    · exact hs
    · exact (hf a ho.symm).sound hs
  error {e} h := by
    rw [hx.fresh_bind hf] at h
    rcases hr : fresh x with e' | a
    · rw [hr] at h
      obtain rfl : e' = e := by simpa [bind, Except.bind] using h
      exact hx.error hr
    · rw [hr] at h
      exact (hf a hr).error h

theorem bind_ok {f : α → Remembering κ υ ε β} (hx : Steady known E x)
    (hf : ∀ a, fresh x = .ok a → Steady known E (f a)) {b : β} (h : fresh (x >>= f) = .ok b) :
    ∃ a, fresh x = .ok a ∧ fresh (f a) = .ok b := by
  rw [hx.fresh_bind hf] at h
  exact bind_eq_ok.mp h

/-- A sequence fails where one of its steps does. -/
theorem bind_error {f : α → Remembering κ υ ε β} (hx : Steady known E x)
    (hf : ∀ a, fresh x = .ok a → Steady known E (f a)) {e : ε}
    (h : fresh (x >>= f) = .error e) :
    fresh x = .error e ∨ ∃ a, fresh x = .ok a ∧ fresh (f a) = .error e := by
  rw [hx.fresh_bind hf] at h
  rcases hr : fresh x with e' | a <;> rw [hr] at h
  · exact .inl (congrArg Except.error (Except.error.inj h))
  · exact .inr ⟨a, rfl, h⟩

theorem answers_bind {f : α → Remembering κ υ ε β} (hx : Steady known E x)
    (hf : ∀ a, fresh x = .ok a → Steady known E (f a)) (ha : Answers x)
    (hfa : ∀ a, fresh x = .ok a → Answers (f a)) : Answers (x >>= f) := by
  obtain ⟨a, hr⟩ := ha
  obtain ⟨b, hb⟩ := hfa a hr
  exact ⟨b, by rw [hx.fresh_bind hf, hr, ← hb]; rfl⟩

protected theorem map (f : α → β) (hx : Steady known E x) : Steady known E (f <$> x) := by
  rw [map_eq_pure_bind]
  exact hx.bind fun a _ => .pure (f a)

theorem fresh_map (f : α → β) (hx : Steady known E x) : fresh (f <$> x) = f <$> fresh x := by
  rw [map_eq_pure_bind, hx.fresh_bind fun a _ => .pure (f a), map_eq_pure_bind]
  rfl

theorem answers_map {f : α → β} (hx : Steady known E x) (ha : Answers x) :
    Answers (f <$> x) := by
  obtain ⟨a, hr⟩ := ha
  exact ⟨f a, by rw [hx.fresh_map, hr]; rfl⟩

theorem map_error {f : α → β} (hx : Steady known E x) {e : ε}
    (h : fresh (f <$> x) = .error e) : fresh x = .error e := by
  rw [map_eq_pure_bind] at h
  exact (hx.bind_error (fun a _ => .pure (f a)) h).resolve_right fun ⟨_, _, h⟩ => nomatch h

theorem map_ok {f : α → β} (hx : Steady known E x) {b : β} (h : fresh (f <$> x) = .ok b) :
    ∃ a, fresh x = .ok a ∧ f a = b := by
  rw [map_eq_pure_bind] at h
  obtain ⟨a, ha, hb⟩ := hx.bind_ok (fun a _ => .pure (f a)) h
  exact ⟨a, ha, by simpa using hb⟩

theorem outcome_tryCatch {handle : ε → Remembering κ υ ε α} (hx : Steady known E x)
    (hh : ∀ e, E e → Steady known E (handle e)) {memo : List (κ × υ)} (h : Recalls known memo) :
    ((tryCatch x handle).run.run memo).1 = tryCatch (fresh x) fun e => fresh (handle e) := by
  have hs := hx.sound h
  have ho := hx.outcome h
  rw [run_tryCatch]
  rcases hr : x.run.run memo with ⟨e | a, memo⟩ <;> rw [hr] at hs ho
  · rw [← ho]
    exact (hh e (hx.error ho.symm)).outcome hs
  · rw [← ho]
    rfl

theorem fresh_tryCatch {handle : ε → Remembering κ υ ε α} (hx : Steady known E x)
    (hh : ∀ e, E e → Steady known E (handle e)) :
    fresh (tryCatch x handle) = tryCatch (fresh x) fun e => fresh (handle e) :=
  hx.outcome_tryCatch hh (recalls_nil known)

/-- Whatever is caught, what was remembered until then stays. -/
protected theorem tryCatch {handle : ε → Remembering κ υ ε α} (hx : Steady known E x)
    (hh : ∀ e, E e → Steady known E (handle e)) : Steady known E (tryCatch x handle) where
  outcome h := by
    rw [hx.fresh_tryCatch hh, hx.outcome_tryCatch hh h]
  sound {memo} h := by
    have hs := hx.sound h
    have ho := hx.outcome h
    rw [run_tryCatch]
    rcases hr : x.run.run memo with ⟨e | a, memo⟩ <;> rw [hr] at hs ho
    · exact (hh e (hx.error ho.symm)).sound hs
    · exact hs
  error {e} h := by
    rw [hx.fresh_tryCatch hh] at h
    rcases hr : fresh x with e' | a
    · rw [hr] at h
      exact (hh e' (hx.error hr)).error h
    · simp [hr, tryCatch, tryCatchThe, MonadExceptOf.tryCatch, Except.tryCatch] at h

/-- What is remembered is what would be computed. -/
theorem outcome_remembered [DecidableEq κ] {key : κ} {compute : Remembering κ υ ε υ}
    (hx : Steady known E compute) (hc : known key = fresh compute) {memo : List (κ × υ)}
    (h : Recalls known memo) :
    ((remembered key compute).run.run memo).1 = fresh compute ∧
      Recalls known ((remembered key compute).run.run memo).2 := by
  have hs := hx.sound h
  have ho := hx.outcome h
  rw [run_remembered]
  cases hf : memo.find? (fun entry => decide (entry.1 = key)) with
  | some entry =>
    have hk : entry.1 = key := by simpa using List.find?_some hf
    refine ⟨?_, h⟩
    rw [← hc, ← hk]
    exact (h entry (List.mem_of_find?_eq_some hf)).symm
  | none =>
    rcases hr : compute.run.run memo with ⟨e | a, memo⟩ <;> rw [hr] at hs ho
    · exact ⟨ho, hs⟩
    · refine ⟨ho, ?_⟩
      rintro entry (_ | ⟨_, hm⟩)
      · exact hc.trans ho.symm
      · exact hs entry hm

theorem fresh_remembered [DecidableEq κ] {key : κ} {compute : Remembering κ υ ε υ}
    (hx : Steady known E compute) (hc : known key = fresh compute) :
    fresh (remembered key compute) = fresh compute :=
  (hx.outcome_remembered hc (recalls_nil known)).1

protected theorem remembered [DecidableEq κ] {key : κ} {compute : Remembering κ υ ε υ}
    (hx : Steady known E compute) (hc : known key = fresh compute) :
    Steady known E (remembered key compute) where
  outcome h := by
    rw [hx.fresh_remembered hc, (hx.outcome_remembered hc h).1]
  sound h := (hx.outcome_remembered hc h).2
  error h := hx.error (by rwa [hx.fresh_remembered hc] at h)

protected theorem liftExcept {result : Except ε α} (h : ∀ e, result = .error e → E e) :
    Steady known E (liftExcept result) := by
  rcases result with e | a
  · exact .throw (h e rfl)
  · exact .pure a

theorem fresh_liftExcept (result : Except ε α) :
    fresh (liftExcept result : Remembering κ υ ε α) = result := by
  rcases result with e | a
  · rfl
  · rfl

protected theorem attempt (hx : Steady known E x) : Steady known E (attempt x) :=
  .tryCatch (.map some hx) fun _ _ => .pure none

theorem fresh_attempt (hx : Steady known E x) : fresh (DomQuery.attempt x) = .ok (fresh x).toOption := by
  rw [DomQuery.attempt, (hx.map some).fresh_tryCatch fun _ _ => .pure none, hx.fresh_map]
  rcases fresh x with e | a
  · rfl
  · rfl

end Steady

/-! ### Several computations -/

section Several

variable {known : κ → Except ε υ} {E : ε → Prop} {α β : Type} {xs : List α}

theorem Steady.mapM {f : α → Remembering κ υ ε β} (h : ∀ x ∈ xs, Steady known E (f x)) :
    Steady known E (xs.mapM f) := by
  induction xs with
  | nil => exact .pure []
  | cons x xs ih =>
    rw [List.mapM_cons]
    exact (h x (by simp)).bind fun b _ =>
      (ih fun x hx => h x (by simp [hx])).bind fun bs _ => .pure (b :: bs)

theorem mapM_ok {f : α → Remembering κ υ ε β} (h : ∀ x ∈ xs, Steady known E (f x)) {ys : List β}
    (hr : fresh (xs.mapM f) = .ok ys) :
    List.Forall₂ (fun x y => fresh (f x) = .ok y) xs ys := by
  induction xs generalizing ys with
  | nil =>
    obtain rfl : [] = ys := by simpa using hr
    exact .nil
  | cons x xs ih =>
    obtain ⟨hx, hxs⟩ := List.forall_mem_cons.mp h
    rw [List.mapM_cons] at hr
    obtain ⟨b, hb, hr⟩ := hx.bind_ok
      (fun b _ => (Steady.mapM hxs).bind fun bs _ => .pure (b :: bs)) hr
    obtain ⟨bs, hbs, hr⟩ := (Steady.mapM hxs).bind_ok (fun bs _ => .pure (b :: bs)) hr
    obtain rfl : b :: bs = ys := by simpa using hr
    exact .cons hb (ih hxs hbs)

theorem mapM_error {f : α → Remembering κ υ ε β} (h : ∀ x ∈ xs, Steady known E (f x)) {e : ε}
    (hr : fresh (xs.mapM f) = .error e) : ∃ x ∈ xs, fresh (f x) = .error e := by
  induction xs with
  | nil => cases hr
  | cons x xs ih =>
    obtain ⟨hx, hxs⟩ := List.forall_mem_cons.mp h
    rw [List.mapM_cons] at hr
    rcases hx.bind_error (fun b _ => (Steady.mapM hxs).bind fun bs _ => .pure (b :: bs)) hr with
      hr | ⟨b, -, hr⟩
    · exact ⟨x, by simp, hr⟩
    · rcases (Steady.mapM hxs).bind_error (fun bs _ => .pure (b :: bs)) hr with hr | ⟨_, -, hr⟩
      · obtain ⟨y, hy, hr⟩ := ih hxs hr
        exact ⟨y, List.mem_cons_of_mem x hy, hr⟩
      · cases hr

end Several

/-! ### What computations come to -/

/-- The computation comes to `r`, whatever is remembered. -/
def ComesTo {α : Type} (known : κ → Except ε υ) (E : ε → Prop) (x : Remembering κ υ ε α)
    (r : Except ε α) : Prop :=
  Steady known E x ∧ fresh x = r

namespace ComesTo

variable {known : κ → Except ε υ} {E : ε → Prop} {α β : Type}
variable {x : Remembering κ υ ε α} {r : Except ε α}

protected theorem pure (a : α) : ComesTo known E (pure a) (pure a) :=
  ⟨.pure a, rfl⟩

protected theorem bind {f : α → Remembering κ υ ε β} {g : α → Except ε β}
    (hx : ComesTo known E x r) (hf : ∀ a, r = .ok a → ComesTo known E (f a) (g a)) :
    ComesTo known E (x >>= f) (r >>= g) := by
  obtain ⟨hx, rfl⟩ := hx
  refine ⟨hx.bind fun a ha => (hf a ha).1, ?_⟩
  rw [hx.fresh_bind fun a ha => (hf a ha).1]
  rcases hr : fresh x with e | a
  · rfl
  · exact (hf a hr).2

protected theorem map (f : α → β) (hx : ComesTo known E x r) :
    ComesTo known E (f <$> x) (f <$> r) :=
  ⟨hx.1.map f, by rw [hx.1.fresh_map, hx.2]⟩

protected theorem mapM {f : α → Remembering κ υ ε β} {g : α → Except ε β} {xs : List α}
    (h : ∀ a ∈ xs, ComesTo known E (f a) (g a)) :
    ComesTo known E (xs.mapM f) (xs.mapM g) := by
  induction xs with
  | nil => exact .pure []
  | cons a xs ih =>
    obtain ⟨ha, hxs⟩ := List.forall_mem_cons.mp h
    rw [List.mapM_cons, List.mapM_cons]
    exact ha.bind fun b _ => (ih hxs).bind fun bs _ => .pure (b :: bs)

end ComesTo

end DomQuery
