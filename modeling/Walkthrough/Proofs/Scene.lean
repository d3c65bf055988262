import Walkthrough.Proofs.Attempt
import Walkthrough.Scene
/-!
Actions on a scene, and those of them that leave its files alone.
-/

namespace Walkthrough

variable {ε ε' ι σ α β : Type}

theorem Act.look_apply (f : Store → Except Fault α) (sc : Scene σ) :
    Act.look f sc = (f sc.files, sc) := rfl

theorem Act.file_apply (w : Filing α) (sc : Scene σ) :
    Act.file w sc = ((w sc.files).1, { sc with files := (w sc.files).2 }) := by
  unfold file
  rw [Attempt.focus_apply]
  rcases w sc.files with ⟨e | x, fs⟩ <;> rfl

/-- An action leaves every file and directory as it was, however it ends. -/
def Fileless (a : Attempt ε (Scene σ) α) : Prop := ∀ sc, (a sc).2.files = sc.files

namespace Fileless

variable {a : Attempt ε (Scene σ) α} {f : α → Attempt ε (Scene σ) β}

theorem bind (ha : Fileless a) (hf : ∀ x, Fileless (f x)) : Fileless (a >>= f) := by
  intro sc
  apply Attempt.bind_keeps (I := fun sc' : Scene σ => sc'.files = sc.files)
  · intro sc' h
    exact (ha sc').trans h
  · intro x sc' h
    exact (hf x sc').trans h
  · rfl

/-- What follows an action that leaves the files alone finds them as they were, if anything does. -/
theorem bind_cases (ha : Fileless a) (f : α → Attempt ε (Scene σ) β) (sc : Scene σ) :
    ((a >>= f) sc).2.files = sc.files ∨
      ∃ x sc', a sc = (.ok x, sc') ∧ sc'.files = sc.files ∧ (a >>= f) sc = f x sc' := by
  have hfiles := ha sc
  rcases h : a sc with ⟨e | x, sc'⟩
  · rw [h] at hfiles
    rw [Attempt.bind_error h]
    exact .inl hfiles
  · rw [h] at hfiles
    exact .inr ⟨x, sc', rfl, hfiles, Attempt.bind_ok h f⟩

theorem files_bind (a : Attempt ε (Scene σ) α) (hf : ∀ x, Fileless (f x)) (sc : Scene σ) :
    ((a >>= f) sc).2.files = (a sc).2.files := by
  rcases h : a sc with ⟨e | x, sc'⟩
  · rw [Attempt.bind_error h]
  · rw [Attempt.bind_ok h]
    exact hf x sc'

theorem outcome (ha : Fileless a) :
    Fileless (Attempt.outcome a : Attempt ε' (Scene σ) (Except ε α)) := ha

theorem thenAlways {last : Attempt ε (Scene σ) Unit} (ha : Fileless a) (hl : Fileless last) :
    Fileless (Attempt.thenAlways a last) := ha.outcome.bind fun _ => hl.bind fun _ _ => rfl

theorem pure (x : α) : Fileless (Pure.pure x : Attempt ε (Scene σ) α) := fun _ => rfl

theorem throw (e : ε) : Fileless (MonadExcept.throw e : Attempt ε (Scene σ) α) := fun _ => rfl

theorem look (f : Store → Except Fault α) : Fileless (Act.look f : Act σ α) := fun _ => rfl

theorem log (level : Level) (channel : Channel) (message : String) :
    Fileless (Act.log level channel message : Act σ Unit) := fun _ => rfl

theorem forIn {ws : List β} {body : β → PUnit → Attempt ε (Scene σ) (ForInStep PUnit)}
    (h : ∀ w u, Fileless (body w u)) (u : PUnit) : Fileless (ForIn.forIn ws u body) := by
  induction ws generalizing u with
  | nil => exact pure u
  | cons w ws ih =>
    rw [List.forIn_cons]
    apply bind (h w u)
    intro step
    cases step with
    | done u => exact pure u
    | yield u => exact ih u

end Fileless

end Walkthrough
