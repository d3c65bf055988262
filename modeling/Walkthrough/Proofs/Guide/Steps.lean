import Mathlib.Algebra.Group.Nat.Defs
import Mathlib.Tactic.SplitIfs
import Walkthrough.Guide
import Walkthrough.Proofs.Except
import Walkthrough.Proofs.Json.Scalar
import Walkthrough.Proofs.Tour.RoundTrip
/-!
The steps of a guide: each is the directive of a line with what its modifiers add, and states no
number that a document could not hold.
-/

namespace Walkthrough

theorem Text.digitsValue_lt (ds : List Char) : Text.digitsValue ds < 10 ^ ds.length := by
  have hd (c : Char) : (Text.digit? c).getD 0 < 10 := by
    rcases hc : Text.digit? c with _ | d
    · decide
    · exact Text.digit?_lt hc
  have hf (ds : List Char) : ∀ n, ds.foldl (fun n c => 10 * n + (Text.digit? c).getD 0) n <
      (n + 1) * 10 ^ ds.length := by
    induction ds with
    | nil => intro n; simp
    | cons c ds ih =>
      intro n
      have hn := hd c
      calc (c :: ds).foldl (fun n c => 10 * n + (Text.digit? c).getD 0) n
        _ < (10 * n + (Text.digit? c).getD 0 + 1) * 10 ^ ds.length := ih _
        _ ≤ ((n + 1) * 10) * 10 ^ ds.length := Nat.mul_le_mul_right _ (by omega)
        _ = (n + 1) * 10 ^ (c :: ds).length := by
          rw [List.length_cons, Nat.pow_succ, Nat.mul_assoc, Nat.mul_comm 10]
  have h := hf ds 0
  rwa [Nat.zero_add, Nat.one_mul] at h

namespace Guide

/-- A number that digits of a guide spell has no more digits than a document may hold. -/
theorem number_readsBack {ds : List Char} {n : Nat} (h : number ds = .ok n) :
    Json.ReadsBack (.int n) := by
  unfold number at h
  split_ifs at h with hl
  cases h
  refine Json.readsBack_int ?_
  rw [Int.natAbs_natCast]
  cases ds with
  | nil => decide
  | cons c ds =>
    have hd := (Nat.length_toDigits_le_iff (by decide) (Nat.succ_pos ds.length)).mpr
      (Text.digitsValue_lt (c :: ds))
    exact le_trans hd (Nat.not_lt.mp hl)

/-- What an action of a directive states. -/
theorem Directive.action_readsBack {l : Line} {d : Directive} {a : Action}
    (h : d.action l = .ok a) : ∀ n ∈ a.numbers, Json.ReadsBack n := by
  have ht {t : Option (List Char)} {n : Int} (h : timeout t = .ok n) : Json.ReadsBack (.int n) := by
    cases t with
    | none =>
      cases h
      exact Json.readsBack_int (by decide)
    | some ds =>
      unfold timeout at h
      rcases hn : number ds with e | m
      · simp only [hn] at h
        cases h
      · simp only [hn] at h
        cases h
        exact number_readsBack hn
  cases d with
  | narration m => cases h; simp [ActionOf.numbers]
  | goto k => cases h; simp [ActionOf.numbers]
  | click lb a => cases h; simp [ActionOf.numbers]
  | fill lb a source => cases source <;> cases h <;> simp [ActionOf.numbers]
  | waitForEvent lb e t =>
    obtain ⟨n, hn, h⟩ := bind_eq_ok.mp h
    cases h
    simpa [ActionOf.numbers] using ht hn
  | expectVisible lb a t =>
    obtain ⟨n, hn, h⟩ := bind_eq_ok.mp h
    cases h
    simpa [ActionOf.numbers] using ht hn
  | waitMs ds =>
    obtain ⟨n, hn, h⟩ := bind_eq_ok.mp h
    cases n with
    | zero => cases h
    | succ n =>
      cases h
      simpa [ActionOf.numbers] using number_readsBack hn
  | screenshot n lb f => cases h; simp [ActionOf.numbers]
  | annotate lb t i => cases h; simp [ActionOf.numbers]
  | includeFragment name => cases h

/-- A fill enters a text that it states or the value of a variable that it names. -/
theorem Directive.fillSource_of_action {l : Line} {d : Directive} {label anchor : String}
    {value envName : Option String} {timeout : Option Number}
    (h : d.action l = .ok (.fill label anchor value envName timeout)) :
    (value.isSome ∧ envName = none) ∨ (value = none ∧ envName.isSome) := by
  cases d with
  | fill lb a source =>
    cases source with
    | value v => cases h; exact .inl ⟨rfl, rfl⟩
    | variable_ n => cases h; exact .inr ⟨rfl, rfl⟩
  | waitForEvent lb e t => obtain ⟨n, -, h⟩ := bind_eq_ok.mp h; cases h
  | expectVisible lb a t => obtain ⟨n, -, h⟩ := bind_eq_ok.mp h; cases h
  | waitMs ds => obtain ⟨n, -, h⟩ := bind_eq_ok.mp h; cases n <;> cases h
  | _ => cases h

theorem modifiers_readsBack {l : Line} {seen cs : List (List Char)} {x x' : Extras}
    (hx : ∀ n ∈ x.preDelay, Json.ReadsBack n) (h : modifiers l seen x cs = .ok x') :
    ∀ n ∈ x'.preDelay, Json.ReadsBack n := by
  induction cs generalizing seen x with
  | nil =>
    cases h
    exact hx
  | cons c cs ih =>
    unfold modifiers at h
    simp only at h
    split_ifs at h
    split at h
    · cases h
    · next m _ =>
      obtain ⟨y, hy, h⟩ := bind_eq_ok.mp h
      refine ih ?_ h
      cases m with
      | preDelay ds =>
        obtain ⟨n, hn, hy⟩ := bind_eq_ok.mp hy
        cases hy
        simpa using number_readsBack hn
      | narration t => cases hy; exact hx
      | capture m n f => cases hy; exact hx
      | annotate i => cases hy; exact hx

/-- A line is read as a step only if its first clause is a directive and the others modifiers. -/
theorem parseLine_ok {l : Line} {s : Step} (h : parseLine l = .ok s) :
    ∃ base rest d, clauses l.text.toList = base :: rest ∧ Directive.ofText? base = some d ∧
      d.action l = .ok s.action ∧ modifiers l [] {} rest = .ok s.extras := by
  unfold parseLine at h
  split at h
  · cases h
  · next base rest hc =>
    obtain ⟨x, hx, h⟩ := bind_eq_ok.mp h
    split at h
    · next d hd =>
      obtain ⟨a, ha, h⟩ := bind_eq_ok.mp h
      cases h
      exact ⟨base, rest, d, hc, hd, ha, hx⟩
    · cases h

/-- Every step of a guide is the step of a line. -/
theorem parse_ok {st : Store} {directory : Option Path} {source text : String} {steps : List Step}
    (h : parse st directory source text = .ok steps) :
    ∀ s ∈ steps, ∃ l, parseLine l = .ok s := by
  intro s hs
  obtain ⟨ls, -, h⟩ := bind_eq_ok.mp h
  obtain ⟨l, -, hl⟩ := exists_of_mem_mapM h hs
  exact ⟨l, hl⟩

theorem parseLine_readsBack {l : Line} {s : Step} (h : parseLine l = .ok s) :
    ∀ n ∈ s.numbers, Json.ReadsBack n := by
  obtain ⟨base, rest, d, -, -, ha, hx⟩ := parseLine_ok h
  intro n hn
  rcases List.mem_append.mp hn with hn | hn
  · exact Directive.action_readsBack ha n hn
  · exact modifiers_readsBack (by simp) hx n (Option.mem_toList.mp hn)

end Guide

end Walkthrough
