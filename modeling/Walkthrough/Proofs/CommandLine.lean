import Walkthrough.CommandLine
import Walkthrough.Proofs.Scene
/-!
How commands end. Reading leaves a scene as it was; a fault ends a command with the code 1 if there
are words for it, and leaves the command as it is if there are none.
-/

namespace Walkthrough

variable {ι σ α : Type}

namespace CommandLine

/-- The code that a command is cut short with, or the fault. -/
def Halt.code : Halt → Except Fault Nat
  | .ended e => .ok e.code
  | .raised f => .error f

/-- The code that a command ends with, or the fault. -/
def codeOf (r : Except Halt Ending) : Except Fault Nat :=
  match r with
  | .ok e => .ok e.code
  | .error h => h.code

/-- What a fault cuts a command short with. -/
def haltOf (words : Fault → Option String) (f : Fault) : Halt :=
  match words f with
  | some w => .ended { code := 1, errors := [w] }
  | none => .raised f

theorem orEnd_apply (words : Fault → Option String) (a : Act σ α) (sc : Scene σ) :
    orEnd words a sc = ((a sc).1.mapError (haltOf words), (a sc).2) := by
  unfold orEnd haltOf
  rw [Attempt.bind_ok (Attempt.outcome_apply a sc)]
  rcases a sc with ⟨f | x, sc'⟩
  · dsimp only [Except.mapError]
    rcases words f with _ | w <;> rfl
  · rfl

theorem fileless_orEnd {words : Fault → Option String} {a : Act σ α} (h : Fileless a) :
    Fileless (orEnd words a) := by
  intro sc
  rw [orEnd_apply]
  exact h sc

theorem fileless_vocabulary (l : Layout) : Fileless (vocabulary l : Doing σ Vocabulary) :=
  fileless_orEnd (.look _)

theorem code_haltOf (words : Fault → Option String) (f : Fault) :
    (haltOf words f).code = if (words f).isSome then .ok 1 else .error f := by
  unfold haltOf
  rcases words f with _ | w <;> rfl

/-- The file that a command is given. -/
def Arguments.file (a : Arguments) : Path := Path.ofString (a.operand.getD "")

variable (s : Surroundings ι σ)

theorem fileless_settings (a : Arguments) (l : Layout) : Fileless (settings s a l) := by
  have hload : Fileless (Settings.load l none s.process : Act σ Settings) := by
    unfold Settings.load
    apply Fileless.bind (.look _)
    intro bindings
    apply Fileless.bind
    · exact .forIn (fun line _ => .bind (.log _ _ _) fun _ => .pure _) _
    · exact fun _ => .pure _
  exact .bind (fileless_orEnd hload) fun _ => .pure _

theorem outcome_ended (c : Command) (a : Arguments) (sc : Scene σ) :
    (outcome s c a sc).1.ended = codeOf (perform s c a sc).1 := by
  unfold outcome
  rcases perform s c a sc with ⟨(e | f) | e, sc'⟩ <;> rfl

/-- A command that is to be done in a project whose root has no name raises a fault at once. -/
theorem perform_of_lacksValue {a : Arguments} (h : a.lacksValue .root = true) (c : Command)
    (sc : Scene σ) : ∃ f, perform s c a sc = (.error (.raised f), sc) := by
  unfold perform
  rw [if_pos h]
  exact ⟨_, rfl⟩

theorem perform_compile {a : Arguments} (h : a.lacksValue .root = false) :
    perform s .compile a = compile s a a.file := by
  unfold perform
  rw [if_neg (by rw [h]; decide)]
  rfl

theorem perform_run {a : Arguments} (h : a.lacksValue .root = false) :
    perform s .run a = run s a a.file := by
  unfold perform
  rw [if_neg (by rw [h]; decide)]
  rfl

end CommandLine

end Walkthrough
