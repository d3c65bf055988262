import Walkthrough.Attempt
/-!
Attempts put together: how one action ends is how the parts that were done end.
-/

namespace Walkthrough.Attempt

variable {ε ε' s t α β : Type}

theorem bind_apply (a : Attempt ε s α) (f : α → Attempt ε s β) (st : s) :
    (a >>= f) st = match a st with
      | (.ok x, st') => f x st'
      | (.error e, st') => (.error e, st') := by
  change (ExceptT.bindCont f (a st).1) (a st).2 = _
  rcases a st with ⟨e | x, st'⟩ <;> rfl

theorem bind_ok {a : Attempt ε s α} {st st' : s} {x : α} (h : a st = (.ok x, st'))
    (f : α → Attempt ε s β) : (a >>= f) st = f x st' := by
  rw [bind_apply, h]

theorem bind_error {a : Attempt ε s α} {st st' : s} {e : ε} (h : a st = (.error e, st'))
    (f : α → Attempt ε s β) : (a >>= f) st = (.error e, st') := by
  rw [bind_apply, h]

theorem bind_of_ok {a : Attempt ε s α} {st : s} {x : α} (h : (a st).1 = .ok x)
    (f : α → Attempt ε s β) : (a >>= f) st = f x (a st).2 := by
  rw [bind_apply, ← Prod.eta (a st), h]

theorem bind_of_error {a : Attempt ε s α} {st : s} {e : ε} (h : (a st).1 = .error e)
    (f : α → Attempt ε s β) : (a >>= f) st = (.error e, (a st).2) := by
  rw [bind_apply, ← Prod.eta (a st), h]

/-- An action and what follows it end with a value only if both do. -/
theorem bind_eq_ok {a : Attempt ε s α} {f : α → Attempt ε s β} {st st'' : s} {y : β} :
    (a >>= f) st = (.ok y, st'') ↔ ∃ x st', a st = (.ok x, st') ∧ f x st' = (.ok y, st'') := by
  constructor
  · intro h
    rw [bind_apply] at h
    rcases ha : a st with ⟨e | x, st'⟩
    · rw [ha] at h
      cases h
    · rw [ha] at h
      exact ⟨x, st', rfl, h⟩
  · rintro ⟨x, st', ha, hf⟩
    rw [bind_ok ha, hf]

/-- A cause comes from one of the parts. -/
theorem bind_cause {a : Attempt ε s α} {f : α → Attempt ε s β} {st : s} {e : ε}
    (h : ((a >>= f) st).1 = .error e) :
    (a st).1 = .error e ∨ ∃ x st', a st = (.ok x, st') ∧ (f x st').1 = .error e := by
  rcases ha : a st with ⟨e' | x, st'⟩
  · rw [bind_error ha] at h
    cases h
    exact .inl rfl
  · rw [bind_ok ha] at h
    exact .inr ⟨x, st', rfl, h⟩

theorem outcome_apply (a : Attempt ε s α) (st : s) :
    (outcome a : Attempt ε' s (Except ε α)) st = (.ok (a st).1, (a st).2) := rfl

theorem outcome_of {a : Attempt ε s α} {st st' : s} {r : Except ε α} (h : a st = (r, st')) :
    (outcome a : Attempt ε' s (Except ε α)) st = (.ok r, st') := by
  rw [outcome_apply, h]

theorem get_apply (st : s) : (get : Attempt ε s s) st = (.ok st, st) := rfl

/-- The last action decides how it ends only if it fails. -/
theorem thenAlways_apply (a : Attempt ε s α) (last : Attempt ε s Unit) (st : s) :
    a.thenAlways last st = match last (a st).2 with
      | (.ok (), st') => ((a st).1, st')
      | (.error e, st') => (.error e, st') := by
  change (last >>= fun _ => decided (a st).1) (a st).2 = _
  rw [bind_apply]
  rcases last (a st).2 with ⟨e | x, st'⟩ <;> rfl

/-- With a last action there is a value only if both actions have one. -/
theorem thenAlways_eq_ok {a : Attempt ε s α} {last : Attempt ε s Unit} {st st'' : s} {x : α}
    (h : a.thenAlways last st = (.ok x, st'')) :
    ∃ st', a st = (.ok x, st') ∧ last st' = (.ok (), st'') := by
  rw [thenAlways_apply] at h
  rcases hlast : last (a st).2 with ⟨e | ⟨⟩, st'⟩
  · rw [hlast] at h
    cases h
  · rw [hlast] at h
    obtain ⟨hr, rfl⟩ := Prod.mk.inj h
    exact ⟨(a st).2, Prod.ext hr rfl, hlast⟩

theorem focus_apply (part : s → t) (put : t → s → s) (cause : ε → ε') (a : Attempt ε t α) (st : s) :
    focus part put cause a st = (((a (part st)).1.mapError cause), put (a (part st)).2 st) := rfl

/-- A change keeps what it keeps when it can be made. -/
theorem change_keeps {I : s → Prop} {f : s → Except ε s}
    (h : ∀ st st', f st = .ok st' → I st → I st')
    (st : s) (hi : I st) : I (change f st).2 := by
  unfold change
  rcases hf : f st with e | st'
  · exact hi
  · exact h st st' hf hi

/-- What two actions keep, both of them one after the other keep. -/
theorem bind_keeps {I : s → Prop} {a : Attempt ε s α} {f : α → Attempt ε s β}
    (ha : ∀ st, I st → I (a st).2) (hf : ∀ x st, I st → I (f x st).2) (st : s) (hi : I st) :
    I ((a >>= f) st).2 := by
  have h := ha st hi
  rw [bind_apply]
  rcases has : a st with ⟨e | x, st'⟩
  · rw [has] at h
    exact h
  · rw [has] at h
    exact hf x st' h

/-- What each action of a row keeps, the row keeps. -/
theorem forM_keeps {I : s → Prop} {f : α → Attempt ε s PUnit}
    (h : ∀ a st, I st → I (f a st).2) (as : List α) (st : s) (hi : I st) : I (as.forM f st).2 := by
  induction as generalizing st with
  | nil => exact hi
  | cons a as ih => exact bind_keeps (h a) (fun _ => ih) st hi

end Walkthrough.Attempt
