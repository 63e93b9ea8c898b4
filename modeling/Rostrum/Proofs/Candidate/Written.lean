import Rostrum.Proofs.Candidate
import Rostrum.Proofs.Json.Extensional

/-!
# Candidates that are written and read back

A candidate that was read off a value keeps its further members apart from the three known ones. So no
name is written twice, the object that is written has the members of the candidate and no others, and it
is read as the same candidate.
-/

namespace Rostrum.Candidate

open Json (Members Ordered Optional IsString IsWord32)

/-- What every candidate is that was read off a value. -/
structure WellFormed (c : Candidate) : Prop where
  extras_sorted : c.extras.Sorted
  extras_ordered : ∀ m ∈ c.extras, m.2.Ordered
  extras_unknown : ∀ m ∈ c.extras, m.1 ∉ knownNames
  lineIndex_le : ∀ i, c.lineIndex = some i → i ≤ Json.maxWord32

theorem wellFormed_of_denotes {v : Json} {c : Candidate} (hv : v.Ordered) (h : Denotes v c) :
    c.WellFormed := by
  cases h with
  | @object ms _ hline hmid hindex hextras =>
    obtain ⟨hsorted, hordered⟩ := Json.ordered_object hv
    have hsub : ∀ m ∈ c.extras, m ∈ ms ∧ m.1 ∉ knownNames := by
      intro m hm
      rw [hextras] at hm
      simpa using hm
    refine ⟨?_, fun m hm => hordered m (hsub m hm).1, fun m hm => (hsub m hm).2, ?_⟩
    · rw [hextras]
      exact hsorted.filter _
    · intro i hi
      rw [hi] at hindex
      generalize ms.get? lineIndexName = found at hindex
      cases hindex with
      | given h => exact h.2

theorem mem_members {c : Candidate} {m : String × Json} (h : m ∈ c.members) :
    (∃ s, m.2 = .string s) ∨ (∃ i, c.lineIndex = some i ∧ m.2 = Json.ofNat i) ∨ m ∈ c.extras := by
  simp only [members, List.cons_append, List.mem_cons, List.mem_append, Option.mem_toList,
    Option.map_eq_some_iff] at h
  rcases h with rfl | (⟨mid, -, rfl⟩ | ⟨i, hi, rfl⟩) | h
  · exact .inl ⟨_, rfl⟩
  · exact .inl ⟨mid, rfl⟩
  · exact .inr (.inl ⟨i, hi, rfl⟩)
  · exact .inr (.inr h)

namespace WellFormed
variable {c : Candidate} (h : c.WellFormed)
include h

theorem not_mem_extras {name : String} (hname : name ∈ knownNames) : name ∉ c.extras.map Prod.fst := by
  intro hmem
  obtain ⟨m, hm, rfl⟩ := List.mem_map.mp hmem
  exact h.extras_unknown m hm hname

/-- No name is written twice. -/
theorem members_nodup : (c.members.map Prod.fst).Nodup := by
  obtain ⟨hlm, hli, hmi⟩ := names_distinct
  have hextras := h.extras_sorted.nodup
  have hline := h.not_mem_extras (show lineName ∈ knownNames by simp [knownNames])
  have hmid := h.not_mem_extras (show midName ∈ knownNames by simp [knownNames])
  have hindex := h.not_mem_extras (show lineIndexName ∈ knownNames by simp [knownNames])
  unfold members
  cases c.mid <;> cases c.lineIndex <;> simp_all

theorem get?_members (name : String) : Members.get? name c.members =
    if name = lineName then some (.string c.line)
    else if name = midName then c.mid.map Json.string
    else if name = lineIndexName then c.lineIndex.map Json.ofNat
    else c.extras.get? name := by
  obtain ⟨hlm, hli, hmi⟩ := names_distinct
  have hmid := h.not_mem_extras (show midName ∈ knownNames by simp [knownNames])
  have hindex := h.not_mem_extras (show lineIndexName ∈ knownNames by simp [knownNames])
  rw [← Members.get?_eq_none_iff] at hmid hindex
  unfold members
  rw [Members.get?_append, Members.get?_append]
  by_cases hl : name = lineName
  · subst hl
    simp [Members.get?]
  · by_cases hm : name = midName
    · subst hm
      cases c.mid <;> cases c.lineIndex <;> simp [Members.get?, hl, hmid, hmi.symm, Ne.symm hl]
    · by_cases hi : name = lineIndexName
      · subst hi
        cases c.mid <;> cases c.lineIndex <;> simp [Members.get?, hl, hindex, hm, Ne.symm hl, Ne.symm hm]
      · cases c.mid <;> cases c.lineIndex <;>
          simp [Members.get?, hl, hm, hi, Ne.symm hl, Ne.symm hm, Ne.symm hi]

theorem members_ordered : ∀ m ∈ c.members, m.2.Ordered := by
  intro m hm
  rcases mem_members hm with ⟨s, hs⟩ | ⟨i, -, hi⟩ | hm
  · exact hs ▸ .string s
  · exact hi ▸ .number (.int i)
  · exact h.extras_ordered m hm

theorem ordered_toJson : c.toJson.Ordered := Json.ordered_mkObject h.members_ordered

/-- The object of a candidate denotes it and no other one. -/
theorem denotes_toJson : Denotes c.toJson c := by
  obtain ⟨hlm, hli, hmi⟩ := names_distinct
  have hget := fun name => (Members.get?_ofList h.members_nodup name).trans (h.get?_members name)
  refine .object ?_ ?_ ?_ ?_
  · simp [hget]
  · rw [hget, if_neg hlm.symm, if_pos rfl]
    cases c.mid with
    | none => exact .missing
    | some mid => exact .given rfl
  · rw [hget, if_neg hli.symm, if_neg hmi.symm, if_pos rfl]
    cases hc : c.lineIndex with
    | none => exact .missing
    | some i => exact .given ⟨rfl, h.lineIndex_le i hc⟩
  · apply h.extras_sorted.ext ((Members.sorted_ofList _).filter _)
    intro name
    rw [Members.get?_filter (Members.sorted_ofList _).nodup, hget]
    by_cases hknown : name ∈ knownNames
    · rw [Members.get?_eq_none_iff.mpr (h.not_mem_extras hknown)]
      exact (Option.filter_eq_none_iff.mpr fun v _ => by simpa using hknown).symm
    · have hne : name ≠ lineName ∧ name ≠ midName ∧ name ≠ lineIndexName := by
        simpa [knownNames] using hknown
      rw [if_neg hne.1, if_neg hne.2.1, if_neg hne.2.2]
      cases c.extras.get? name <;> simp [Option.filter_some, hknown]

theorem ofJson_toJson : ofJson c.toJson = .ok c :=
  (ofJson_eq_ok_iff h.ordered_toJson).mpr h.denotes_toJson

end WellFormed

end Rostrum.Candidate
