import Walkthrough.Proofs.Reference
import Walkthrough.Proofs.Suggest
/-!
Issues are exact: one for each unknown name that a tour refers to, in the order of the first steps
that do, with all the steps that do. What they are hangs on which names there are, and on nothing
else of a vocabulary and a map.
-/

namespace Walkthrough

/-- What an action refers to: a route by its key, an event by its name, or an element by its
anchor. -/
inductive ActionOf.RefersTo {τ φ ν : Type} : ActionOf τ φ ν → ReferenceKind → τ → Prop
  | goto (key : τ) : RefersTo (.goto key) .routeKey key
  | waitForEvent (label event : τ) (timeout : Int) :
    RefersTo (.waitForEvent label event timeout) .event event
  | click (label anchor : τ) (timeout : Option ν) :
    RefersTo (.click label anchor timeout) .anchor anchor
  | fill (label anchor : τ) (value envName : Option τ) (timeout : Option ν) :
    RefersTo (.fill label anchor value envName timeout) .anchor anchor
  | expectVisible (label anchor : τ) (timeout : Int) :
    RefersTo (.expectVisible label anchor timeout) .anchor anchor

theorem ActionOf.reference?_eq_some_iff {τ φ ν : Type} {a : ActionOf τ φ ν} {kind : ReferenceKind}
    {value : τ} : a.reference? = some (kind, value) ↔ a.RefersTo kind value := by
  constructor
  · intro h
    cases a <;> cases h <;> constructor
  · rintro (_ | _ | _ | _ | _) <;> rfl

/-- The names of a kind that there are, in no order and any number of times. -/
def namesOf (v : Vocabulary) (m : Option TourMap) : ReferenceKind → List String
  | .routeKey => v.routes.map (·.key)
  | .event => v.events
  | .anchor => (m.map fun m => m.routes.flatMap (·.2.anchors)).getD []

/-- A name of a kind is not among those that there are; without a map any anchor may be. -/
def IsMissing (v : Vocabulary) (m : Option TourMap) (kind : ReferenceKind) (value : String) :
    Prop :=
  value ∉ namesOf v m kind ∧ (kind = .anchor → m.isSome)

section

variable {v : Vocabulary} {m : Option TourMap}

theorem Known.mem_names {kind : ReferenceKind} {value : String} :
    value ∈ ((Known.of v m).names? kind).getD [] ↔ value ∈ namesOf v m kind := by
  cases kind with
  | routeKey => exact Text.mem_sortedSet
  | event => exact Text.mem_sortedSet
  | anchor =>
    cases m with
    | none => exact Iff.rfl
    | some m => exact Text.mem_sortedSet

theorem Known.isUnknown_iff {kind : ReferenceKind} {value : String} :
    (Known.of v m).isUnknown (kind, value) = true ↔ IsMissing v m kind value := by
  unfold IsMissing
  rw [← Known.mem_names]
  cases kind with
  | anchor => cases m <;> simp [Known.isUnknown, Known.names?, Known.of]
  | _ => simp [Known.isUnknown, Known.names?, Known.of]

/-- What is known hangs on which names there are. -/
theorem Known.of_congr {v' : Vocabulary} {m' : Option TourMap} (hm : m.isSome = m'.isSome)
    (h : ∀ kind value, value ∈ namesOf v m kind ↔ value ∈ namesOf v' m' kind) :
    Known.of v m = Known.of v' m' := by
  have hanchors : m.map (·.anchorSet) = m'.map (·.anchorSet) := by
    cases m <;> cases m' <;> cases hm
    · rfl
    · exact congrArg some (Text.sortedSet_congr (h .anchor))
  unfold Known.of
  rw [hanchors]
  congr 1
  · exact Text.sortedSet_congr (h .routeKey)
  · exact Text.sortedSet_congr (h .event)

end

namespace Tour

section

variable {α : Type} [BEq α] [LawfulBEq α]

/-- Where something stands in a list of things with their places. -/
def placesOf (xs : List (α × Nat)) (a : α) : List Nat := (xs.filter (·.1 == a)).map (·.2)

theorem placesOf_filter_ne {a b : α} (h : b ≠ a) (xs : List (α × Nat)) :
    placesOf (xs.filter fun x => !x.1 == a) b = placesOf xs b := by
  unfold placesOf
  rw [List.filter_filter]
  congr 2
  funext x
  by_cases hx : x.1 = b
  · simp [hx, h]
  · simp [hx]

/-- Things come, each once, in the order of the first places that they stand at. -/
theorem pairwise_eraseDups_placesOf : ∀ xs : List (α × Nat), xs.Pairwise (·.2 < ·.2) →
    (xs.map (·.1)).eraseDups.Pairwise fun a b =>
      ∃ i ∈ (placesOf xs a).head?, ∃ j ∈ (placesOf xs b).head?, i < j
  | [], _ => .nil
  | (a, i) :: xs, h => by
    obtain ⟨hi, hxs⟩ := List.pairwise_cons.mp h
    have hrest : (xs.map (·.1)).filter (fun b => !b == a) =
        (xs.filter fun x => !x.1 == a).map (·.1) := List.filter_map
    have hskip {b : α} (hb : b ≠ a) : placesOf ((a, i) :: xs) b =
        placesOf (xs.filter fun x => !x.1 == a) b := by
      rw [placesOf_filter_ne hb]
      simp [placesOf, Ne.symm hb]
    rw [List.map_cons, List.eraseDups_cons, hrest, List.pairwise_cons]
    have hne {b : α} (hb : b ∈ ((xs.filter fun x => !x.1 == a).map (·.1)).eraseDups) :
        b ≠ a := by
      rw [List.mem_eraseDups, List.mem_map] at hb
      obtain ⟨x, hx, rfl⟩ := hb
      simpa using (List.mem_filter.mp hx).2
    refine ⟨fun b hb => ⟨i, by simp [placesOf], ?_⟩, ?_⟩
    · -- what comes later stands first at a place of the rest
      rw [hskip (hne hb)]
      rw [List.mem_eraseDups, List.mem_map] at hb
      obtain ⟨x, hx, rfl⟩ := hb
      have hmem : x.2 ∈ placesOf (xs.filter fun x => !x.1 == a) x.1 :=
        List.mem_map_of_mem (List.mem_filter.mpr ⟨hx, by simp⟩)
      obtain ⟨j, hj⟩ : ∃ j, (placesOf (xs.filter fun x => !x.1 == a) x.1).head? = some j := by
        rw [← Option.isSome_iff_exists, List.isSome_head?]
        exact List.ne_nil_of_mem hmem
      refine ⟨j, hj, ?_⟩
      obtain ⟨y, hy, rfl⟩ := List.mem_map.mp (List.mem_of_head? hj)
      exact hi y (List.mem_filter.mp (List.mem_filter.mp hy).1).1
    · refine (pairwise_eraseDups_placesOf _ (hxs.filter _)).imp_of_mem fun {b c} hb hc h => ?_
      rwa [hskip (hne hb), hskip (hne hc)]
termination_by xs => xs.length
decreasing_by exact Nat.lt_succ_of_le (List.length_filter_le _ _)

end

variable {t : Tour} {k : Known}

/-- References come in the order of their steps. -/
theorem pairwise_references (t : Tour) : t.references.Pairwise (·.2 < ·.2) := by
  unfold references
  rw [List.pairwise_filterMap]
  have hplaces : (t.steps.zipIdx.map (·.2)).Pairwise (· < ·) := by
    rw [List.zipIdx_map_snd]
    exact List.pairwise_lt_range'
  refine (List.pairwise_map.mp hplaces).imp fun {a b} hab x hx y hy => ?_
  obtain ⟨_, -, rfl⟩ := Option.map_eq_some_iff.mp hx
  obtain ⟨_, -, rfl⟩ := Option.map_eq_some_iff.mp hy
  exact hab

theorem nodup_issues (t : Tour) (k : Known) :
    ((t.issues k).map fun i => (i.kind, i.value)).Nodup := by
  have hself (all : List ((ReferenceKind × String) × Nat)) :
      (fun i : Issue => (i.kind, i.value)) ∘ issue k all = fun r => r := rfl
  unfold issues
  rw [List.map_map, hself, List.map_id']
  exact Text.nodup_eraseDups _

/-- An issue names the steps that refer to what it is about, in their order. -/
theorem steps_of_mem_issues {i : Issue} (hi : i ∈ t.issues k) :
    i.steps.Pairwise (· < ·) ∧ ∀ n, n ∈ i.steps ↔
      ∃ s, t.steps[n]? = some s ∧ s.action.reference? = some (i.kind, i.value) := by
  obtain ⟨r, hr, rfl⟩ := List.mem_map.mp hi
  obtain ⟨⟨r', j⟩, hj, rfl⟩ := List.mem_map.mp (List.mem_eraseDups.mp hr)
  have hu := (List.mem_filter.mp hj).2
  refine ⟨List.pairwise_map.mpr (((pairwise_references t).filter _).filter _), fun n => ?_⟩
  rw [← mem_references]
  unfold issue
  simp only [List.mem_map, List.mem_filter]
  constructor
  · rintro ⟨⟨q, n'⟩, ⟨⟨hq, -⟩, he⟩, rfl⟩
    cases beq_iff_eq.mp he
    exact hq
  · intro hn
    exact ⟨((r'.1, r'.2), n), ⟨⟨hn, hu⟩, by simp⟩, rfl⟩

/-- Issues come in the order of the first steps that they are about. -/
theorem pairwise_issues (t : Tour) (k : Known) : (t.issues k).Pairwise fun i j =>
    ∃ a ∈ i.steps.head?, ∃ b ∈ j.steps.head?, a < b := by
  unfold issues
  rw [List.pairwise_map]
  exact pairwise_eraseDups_placesOf _ ((pairwise_references t).filter _)

/-- Of any list of the names that there are, the nearest to the unknown one are suggested. -/
theorem suggestions_of_mem_issues {v : Vocabulary} {m : Option TourMap} {i : Issue}
    (hi : i ∈ t.issues (.of v m)) {names : List String}
    (h : ∀ n, n ∈ names ↔ n ∈ namesOf v m i.kind) :
    i.suggestions = Suggest.nearest i.value names := by
  obtain ⟨r, -, rfl⟩ := List.mem_map.mp hi
  exact Suggest.nearest_congr (fun n => Known.mem_names.trans (h n).symm) r.2 3

/-- Issues are exact. There is one for each name that is missing and that a step refers to, in the
order of the first steps that do; it has all the steps that do, in their order, and there is none
exactly if nothing that a step refers to is missing. A name is suggested because it is one of those
that there are: how a vocabulary and a map come by them makes no difference. -/
theorem issues_exact (t : Tour) (v : Vocabulary) (m : Option TourMap) :
    let issues := t.issues (.of v m)
    (issues.map fun i => (i.kind, i.value)).Nodup ∧
    (∀ kind value, (∃ i ∈ issues, i.kind = kind ∧ i.value = value) ↔
      IsMissing v m kind value ∧ ∃ s ∈ t.steps, s.action.RefersTo kind value) ∧
    (issues.Pairwise fun i j => ∃ a ∈ i.steps.head?, ∃ b ∈ j.steps.head?, a < b) ∧
    (∀ i ∈ issues, i.steps.Pairwise (· < ·) ∧ ∀ n, n ∈ i.steps ↔
      ∃ s, t.steps[n]? = some s ∧ s.action.RefersTo i.kind i.value) ∧
    (issues = [] ↔ ∀ s ∈ t.steps, ∀ kind value,
      s.action.RefersTo kind value → ¬IsMissing v m kind value) ∧
    (∀ i ∈ issues, ∀ names, (∀ n, n ∈ names ↔ n ∈ namesOf v m i.kind) →
      i.suggestions = Suggest.nearest i.value names) ∧
    ∀ v' m', m.isSome = Option.isSome m' →
      (∀ kind value, value ∈ namesOf v m kind ↔ value ∈ namesOf v' m' kind) →
      t.issues (.of v' m') = issues := by
  intro issues
  refine ⟨nodup_issues t _, fun kind value => ?_, pairwise_issues t _, fun i hi => ?_, ?_,
    fun i hi names => suggestions_of_mem_issues hi, fun v' m' hm h => ?_⟩
  · rw [exists_issue_iff, Known.isUnknown_iff]
    simp only [ActionOf.reference?_eq_some_iff]
  · simpa only [ActionOf.reference?_eq_some_iff] using steps_of_mem_issues hi
  · rw [issues_eq_nil_iff]
    simp only [Prod.forall, ActionOf.reference?_eq_some_iff, ← Known.isUnknown_iff,
      Bool.not_eq_true]
  · rw [← Known.of_congr hm h]

end Tour

end Walkthrough
