import Walkthrough.Reference
/-!
References that are answered: a tour without issues refers to nothing unknown.
-/

namespace Walkthrough

/-- A key has a path if one of the routes has the key. -/
theorem Route.pathOf?_isSome_iff {rs : List Route} {key : String} :
    (Route.pathOf? rs key).isSome ↔ key ∈ rs.map (·.key) := by
  simp [Route.pathOf?]

theorem Known.isUnknown_routeKey {v : Vocabulary} {m : Option TourMap} {key : String} :
    (Known.of v m).isUnknown (.routeKey, key) = false ↔ (v.path? key).isSome := by
  have hk : key ∈ v.routeKeySet ↔ key ∈ v.routes.map (·.key) := Text.mem_sortedSet
  rw [Vocabulary.path?, Route.pathOf?_isSome_iff, ← hk]
  simp [Known.of, Known.isUnknown, Known.names?]

theorem Known.isUnknown_anchor {v : Vocabulary} {m : TourMap} {a : String} :
    (Known.of v (some m)).isUnknown (.anchor, a) = !m.anchorSet.contains a := rfl

namespace Tour

theorem mem_references {t : Tour} {r : ReferenceKind × String} {i : Nat} :
    (r, i) ∈ t.references ↔ ∃ s, t.steps[i]? = some s ∧ s.action.reference? = some r := by
  unfold references
  rw [List.mem_filterMap]
  constructor
  · rintro ⟨⟨s, j⟩, hs, hr⟩
    obtain ⟨r', hr', he⟩ := Option.map_eq_some_iff.mp hr
    cases he
    exact ⟨s, List.mem_zipIdx_iff_getElem?.mp hs, hr'⟩
  · rintro ⟨s, hs, hr⟩
    exact ⟨(s, i), List.mem_zipIdx_iff_getElem?.mpr hs, Option.map_eq_some_iff.mpr ⟨r, hr, rfl⟩⟩

/-- There is an issue with a name exactly if it is unknown and a step refers to it. -/
theorem exists_issue_iff {t : Tour} {k : Known} {kind : ReferenceKind} {value : String} :
    (∃ i ∈ t.issues k, i.kind = kind ∧ i.value = value) ↔
      k.isUnknown (kind, value) = true ∧
        ∃ s ∈ t.steps, s.action.reference? = some (kind, value) := by
  simp only [issues, List.mem_map, List.mem_eraseDups, List.mem_filter]
  constructor
  · rintro ⟨_, ⟨r, ⟨⟨_, i⟩, ⟨hr, hu⟩, rfl⟩, rfl⟩, rfl, rfl⟩
    obtain ⟨s, hs, hr⟩ := mem_references.mp hr
    exact ⟨hu, s, List.mem_of_getElem? hs, hr⟩
  · rintro ⟨hu, s, hs, hr⟩
    obtain ⟨i, hi⟩ := List.mem_iff_getElem?.mp hs
    refine ⟨_, ⟨(kind, value), ⟨((kind, value), i), ⟨?_, hu⟩, rfl⟩, rfl⟩, rfl, rfl⟩
    exact mem_references.mpr ⟨s, hi, hr⟩

/-- There are no issues exactly if nothing that a step refers to is unknown. -/
theorem issues_eq_nil_iff {t : Tour} {k : Known} :
    t.issues k = [] ↔
      ∀ s ∈ t.steps, ∀ r, s.action.reference? = some r → k.isUnknown r = false := by
  rw [List.eq_nil_iff_forall_not_mem]
  constructor
  · rintro h s hs ⟨kind, value⟩ hr
    cases hu : k.isUnknown (kind, value) with
    | false => rfl
    | true =>
      obtain ⟨i, hi, -⟩ := exists_issue_iff.mpr ⟨hu, s, hs, hr⟩
      exact absurd hi (h i)
  · intro h i hi
    obtain ⟨hu, s, hs, hr⟩ := exists_issue_iff.mp ⟨i, hi, rfl, rfl⟩
    rw [h s hs _ hr] at hu
    cases hu

theorem mem_anchorReferences {t : Tour} {a : String} :
    a ∈ t.anchorReferences ↔ ∃ s ∈ t.steps, s.action.reference? = some (.anchor, a) := by
  unfold anchorReferences
  rw [List.mem_filterMap]
  constructor
  · rintro ⟨s, hs, ha⟩
    split at ha
    · next b hb =>
      cases ha
      exact ⟨s, hs, hb⟩
    · cases ha
  · rintro ⟨s, hs, ha⟩
    refine ⟨s, hs, ?_⟩
    rw [ha]

end Tour

end Walkthrough
