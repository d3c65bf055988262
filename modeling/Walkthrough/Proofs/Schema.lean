import Walkthrough.Schema
/-!
What a format accepts, rule by rule, apart from what is said about the values it refuses.
-/

namespace Walkthrough

/-- What a rule asks of a value. -/
def Rule.holds : Rule → Json → Bool
  | .kind k, v => k.admits v
  | .required keys, .obj ms => keys.all fun key => (Json.Members.get? ms key).isSome
  | .properties props, .obj ms => props.all fun p => (Json.Members.get? ms p.1).all p.2.accepts
  | .additional known none, .obj ms => ms.all fun m => known.contains m.1
  | .additional known (some s), .obj ms => ms.all fun m => known.contains m.1 || s.accepts m.2
  | .items s, .arr vs => vs.all s.accepts
  | .pattern p, .str s => p.admits s
  | .nonEmpty, .str s => s != ""
  | .minimum least, .num n => !n.ltInt least
  | .const s, v => v.str? == some s
  | .oneAmong ss, v => v.str?.any ss.contains
  | .oneOf branches, v => branches.countP (·.accepts v) == 1
  | _, _ => true

namespace Schema

theorem isEmpty_broken (fits : Bool) (c : Complaint) : (broken fits c).isEmpty = false := rfl

theorem isEmpty_append {α : Type} (xs ys : List α) :
    (xs ++ ys).isEmpty = (xs.isEmpty && ys.isEmpty) := by
  cases xs <;> rfl

theorem isEmpty_flatMap {α β : Type} (f : α → List β) (xs : List α) :
    (xs.flatMap f).isEmpty = xs.all fun x => (f x).isEmpty := by
  induction xs with
  | nil => rfl
  | cons x xs ih => rw [List.flatMap_cons, isEmpty_append, ih, List.all_cons]

theorem isEmpty_map {α β : Type} (f : α → β) (xs : List α) :
    (xs.map f).isEmpty = xs.isEmpty := by
  cases xs <;> rfl

theorem isEmpty_ite {α : Type} {c : Bool} {xs : List α} (h : xs ≠ []) :
    (if c then [] else xs).isEmpty = c := by
  cases c <;> simp [h]

theorem isEmpty_extraKeys (known : List String) (ms : Json.Members) :
    (extraKeys known ms).isEmpty = ms.all fun m => known.contains m.1 := by
  rw [Bool.eq_iff_iff]
  simp [extraKeys]

theorem isEmpty_judge (fits : Bool) (v : Json) (outcomes : List (Schema × List Violation)) :
    (judge fits v outcomes).isEmpty = (outcomes.countP (·.2.isEmpty) == 1) := by
  rw [List.countP_eq_length_filter, ← List.length_map (·.1), judge]
  cases (outcomes.filter (·.2.isEmpty)).map (·.1) with
  | nil => rfl
  | cons s ss => cases ss <;> rfl

theorem checkEach_eq_map (branches : List Schema) (v : Json) :
    checkEach branches v = branches.map fun s => (s, s.check v) := by
  induction branches with
  | nil => rfl
  | cons s ss ih => rw [checkEach, ih, List.map_cons]

theorem isEmpty_checkProps (props : List (String × Schema)) (ms : Json.Members) :
    (checkProps props ms).isEmpty =
      props.all fun p => (Json.Members.get? ms p.1).all p.2.accepts := by
  induction props with
  | nil => rfl
  | cons p ps ih =>
    rw [checkProps, isEmpty_append, ih, List.all_cons]
    cases Json.Members.get? ms p.1 with
    | none => rfl
    | some v => rw [isEmpty_map]; rfl

/-- A rule is broken where it does not hold; `fits` plays no part in that. -/
theorem isEmpty_checkRule (fits : Bool) (r : Rule) (v : Json) :
    (checkRule fits r v).isEmpty = r.holds v := by
  have hb (c : Complaint) : broken fits c ≠ [] := List.cons_ne_nil _ _
  fun_cases Rule.holds r v with
  | case1 k => exact isEmpty_ite (hb _)
  | case2 keys ms =>
    rw [checkRule, isEmpty_flatMap]
    simp only [isEmpty_ite (hb _)]
  | case3 props ms => rw [checkRule, isEmpty_checkProps]
  | case4 known ms =>
    rw [checkRule, ← isEmpty_extraKeys]
    cases extraKeys known ms <;> rfl
  | case5 known s ms =>
    rw [checkRule, isEmpty_flatMap]
    rw [extraKeys, List.all_filter]
    refine List.all_congr rfl fun m => ?_
    rw [isEmpty_map, Bool.not_not]
    rfl
  | case6 s vs =>
    rw [checkRule, isEmpty_flatMap]
    simp only [isEmpty_map]
    calc (vs.zipIdx.all fun p => s.accepts p.1)
      _ = (vs.zipIdx.map Prod.fst).all s.accepts := by rw [List.all_map]; rfl
      _ = vs.all s.accepts := by rw [List.zipIdx_map_fst]
  | case7 p s => exact isEmpty_ite (hb _)
  | case8 s =>
    by_cases hs : s = "" <;> simp [checkRule, hs, hb]
  | case9 least n =>
    rw [checkRule]
    cases n.ltInt least <;> rfl
  | case10 s =>
    rw [checkRule]
    by_cases hs : v.str? = some s
    · simp [hs]
    · rw [if_neg hs, isEmpty_broken]
      exact (beq_eq_false_iff_ne.mpr hs).symm
  | case11 ss => exact isEmpty_ite (hb _)
  | case12 branches =>
    rw [checkRule, isEmpty_judge, checkEach_eq_map, List.countP_map]
    rfl
  | case13 r v => rw [checkRule] <;> first | rfl | assumption

/-- A format accepts what all of its rules hold of. -/
theorem accepts_rules (rs : List Rule) (v : Json) : (rules rs).accepts v = rs.all (·.holds v) := by
  have h (fits : Bool) : (checkRules fits rs v).isEmpty = rs.all (·.holds v) := by
    induction rs with
    | nil => rfl
    | cons r rs ih => rw [checkRules, isEmpty_append, isEmpty_checkRule, ih, List.all_cons]
  rw [accepts, check, h]

/-- A member that a format of objects knows is as its own format has it. -/
theorem accepts_member {rs : List Rule} {props : List (String × Schema)} {k : String}
    {F : Schema} {v : Json} (h : (rules rs).accepts v = true)
    (hp : Rule.properties props ∈ rs) (hk : (k, F) ∈ props) :
    (v.get? k).all F.accepts = true := by
  rw [accepts_rules, List.all_eq_true] at h
  cases v with
  | obj ms => exact List.all_eq_true.mp (h _ hp) _ hk
  | _ => rfl

theorem accepts_item {rs : List Rule} {F : Schema} {vs : List Json}
    (h : (rules rs).accepts (.arr vs) = true) (hi : Rule.items F ∈ rs) :
    ∀ v ∈ vs, F.accepts v = true := by
  rw [accepts_rules, List.all_eq_true] at h
  exact List.all_eq_true.mp (h _ hi)

theorem accepts_required {rs : List Rule} {keys : List String} {key : String} {v : Json}
    (h : (rules rs).accepts v = true) (ho : Rule.kind .object ∈ rs)
    (hr : Rule.required keys ∈ rs) (hk : key ∈ keys) : (v.get? key).isSome = true := by
  rw [accepts_rules, List.all_eq_true] at h
  cases v with
  | obj ms => exact List.all_eq_true.mp (h _ hr) _ hk
  | _ => cases h _ ho

end Schema

end Walkthrough
