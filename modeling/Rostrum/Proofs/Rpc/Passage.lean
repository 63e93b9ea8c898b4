import Rostrum.Proofs.Candidate.Written
import Rostrum.Rpc.Request

/-!
# Candidates that pass through the server

Between clients and the engine a candidate keeps all its members. Only an optional member that is null
is left out, and the two tags of the engine are put in on the way there, whatever stands under their
names, and taken off on the way back.
-/

namespace Rostrum

open Json (Members)

def Json.isNull : Json → Bool
  | .null => true
  | _ => false

namespace Candidate

/-- The names whose members may be null. -/
def optionalNames : List String := [midName, lineIndexName]

/-- The members that are passed on: all but the optional ones that are null. -/
def passedOn (ms : Members) : Members := ms.filter fun m => !(m.1 ∈ optionalNames && m.2.isNull)

section PassedOn
variable {ms : Members} {c : Candidate}

theorem get?_passedOn (h : ms.Sorted) (name : String) :
    (passedOn ms).get? name = (ms.get? name).filter fun v => !(name ∈ optionalNames && v.isNull) :=
  Members.get?_filter h.nodup _ name

theorem get?_passedOn_of_not_mem (h : ms.Sorted) {name : String} (hname : name ∉ optionalNames) :
    (passedOn ms).get? name = ms.get? name := by
  rw [get?_passedOn h]
  cases ms.get? name <;> simp [Option.filter_some, hname]

theorem filter_of_optional {α : Type} {P : Json → α → Prop} {found : Option Json} {x : Option α}
    {write : α → Json} (h : Json.Optional P found x)
    (hwrite : ∀ v x, P v x → v = write x ∧ v.isNull = false) :
    (found.filter fun v => !v.isNull) = x.map write := by
  cases h with
  | missing | null => rfl
  | given h =>
    obtain ⟨rfl, hnull⟩ := hwrite _ _ h
    simp [Option.filter_some, hnull]

/-- An object that is read as a candidate has the members that are written of it, and nulls. -/
theorem get?_passedOn_of_denotes (hv : (Json.object ms).Ordered) (h : Denotes (.object ms) c)
    (name : String) : (passedOn ms).get? name = Members.get? name c.members := by
  obtain ⟨hlm, hli, hmi⟩ := names_distinct
  obtain ⟨hsorted, -⟩ := Json.ordered_object hv
  rw [(wellFormed_of_denotes hv h).get?_members]
  cases h with
  | object hline hmid hindex hextras =>
    by_cases hknown : name ∈ knownNames
    · simp only [knownNames, List.mem_cons, List.not_mem_nil, or_false] at hknown
      rcases hknown with rfl | rfl | rfl
      · rw [if_pos rfl, get?_passedOn_of_not_mem hsorted (by simp [optionalNames, hlm, hli]), hline]
      · rw [if_neg hlm.symm, if_pos rfl, get?_passedOn hsorted]
        simp only [optionalNames, List.mem_cons, true_or, decide_true, Bool.true_and]
        exact filter_of_optional hmid fun v s h => ⟨h, by rw [h]; rfl⟩
      · rw [if_neg hli.symm, if_neg hmi.symm, if_pos rfl, get?_passedOn hsorted]
        simp only [optionalNames, List.mem_cons, true_or, or_true, decide_true, Bool.true_and]
        exact filter_of_optional hindex fun v i h => ⟨h.1, by rw [h.1]; rfl⟩
    · have hne : name ≠ lineName ∧ name ≠ midName ∧ name ≠ lineIndexName := by
        simpa [knownNames] using hknown
      rw [if_neg hne.1, if_neg hne.2.1, if_neg hne.2.2, hextras, Members.get?_filter hsorted.nodup,
        get?_passedOn_of_not_mem hsorted (by simp [optionalNames, hne])]
      cases ms.get? name <;> simp [Option.filter_some, hknown]

theorem toJson_of_denotes (hv : (Json.object ms).Ordered) (h : Denotes (.object ms) c) :
    c.toJson = .object (passedOn ms) := by
  have hwf := wellFormed_of_denotes hv h
  have hsorted : (passedOn ms).Sorted := (Json.ordered_object hv).1.filter _
  refine congrArg Json.object ((Members.sorted_ofList _).ext hsorted fun name => ?_)
  rw [Members.get?_ofList hwf.members_nodup, get?_passedOn_of_denotes hv h]

theorem members_perm (hv : (Json.object ms).Ordered) (h : Denotes (.object ms) c) :
    c.members.Perm (passedOn ms) := by
  have hwf := wellFormed_of_denotes hv h
  have hsorted : (passedOn ms).Sorted := (Json.ordered_object hv).1.filter _
  exact Members.perm_of_get? hwf.members_nodup hsorted.nodup
    fun name => (get?_passedOn_of_denotes hv h name).symm

end PassedOn

end Candidate

namespace Rpc

open Candidate (knownNames passedOn)

def tagNames : List String := candidateTags.map Prod.fst

/-- What the members of a candidate become on the way to the engine. -/
structure Tagged (ms ms' : Members) : Prop where
  sorted : ms'.Sorted
  module : ms'.get? "__module__" = some (.string "kurento")
  type : ms'.get? "__type__" = some (.string "IceCandidate")
  others : ∀ name, name ≠ "__module__" → name ≠ "__type__" → ms'.get? name = ms.get? name

/-- A candidate without what stands under the names of the tags. -/
def untagged (c : Candidate) : Candidate :=
  { c with extras := c.extras.filter fun m => m.1 ∉ tagNames }

def putTags (ms : Members) : Members :=
  (ms.put "__module__" (.string "kurento")).put "__type__" (.string "IceCandidate")

def dropTags (ms : Members) : Members := Members.drop "__type__" (Members.drop "__module__" ms)

section Tags
variable {ms : Members} {c : Candidate}

theorem candidateToEngine_eq (h : c.toJson = .object ms) :
    candidateToEngine c = .object (putTags ms) := by
  unfold candidateToEngine
  rw [h]
  rfl

theorem candidateFromEngine_object (ms : Members) :
    candidateFromEngine (.object ms) = Candidate.ofJson (.object (dropTags ms)) := rfl

theorem get?_dropTags (ms : Members) (name : String) :
    (dropTags ms).get? name = if name ∈ tagNames then none else ms.get? name := by
  unfold dropTags
  rw [Members.get?_drop, Members.get?_drop]
  by_cases ht : name = "__type__"
  · simp [tagNames, candidateTags, ht]
  · by_cases hm : name = "__module__"
    · simp [tagNames, candidateTags, hm]
    · simp [tagNames, candidateTags, ht, hm, Ne.symm ht, Ne.symm hm]

theorem sorted_dropTags (h : ms.Sorted) : (dropTags ms).Sorted := (h.drop _).drop _

theorem putTags_tagged (h : ms.Sorted) : Tagged ms (putTags ms) := by
  have hfirst := h.put "__module__" (.string "kurento")
  refine ⟨hfirst.put _ _, ?_, ?_, ?_⟩
  · simp [putTags, Members.get?_put hfirst, Members.get?_put h]
  · simp [putTags, Members.get?_put hfirst]
  · intro name hm ht
    simp [putTags, Members.get?_put hfirst, Members.get?_put h, Ne.symm hm, Ne.symm ht]

theorem ordered_dropTags (h : (Json.object ms).Ordered) : (Json.object (dropTags ms)).Ordered := by
  obtain ⟨hsorted, hvalues⟩ := Json.ordered_object h
  refine .object (sorted_dropTags hsorted) fun m hm => hvalues m ?_
  exact List.mem_of_mem_filter (List.mem_of_mem_filter hm)

theorem get?_dropTags_putTags (h : ms.Sorted) (name : String) :
    (dropTags (putTags ms)).get? name = if name ∈ tagNames then none else ms.get? name := by
  rw [get?_dropTags]
  split
  · rfl
  · rename_i hname
    have hne : name ≠ "__module__" ∧ name ≠ "__type__" := by
      simpa [tagNames, candidateTags] using hname
    exact (putTags_tagged h).others name hne.1 hne.2

theorem untagged_wellFormed (h : c.WellFormed) : (untagged c).WellFormed where
  extras_sorted := h.extras_sorted.filter _
  extras_ordered m hm := h.extras_ordered m (List.mem_of_mem_filter hm)
  extras_unknown m hm := h.extras_unknown m (List.mem_of_mem_filter hm)
  lineIndex_le := h.lineIndex_le

/-- No known name is that of a tag, so taking off the tags leaves the object of what is not tagged. -/
theorem toJson_untagged (h : c.WellFormed) :
    (untagged c).toJson = .object (dropTags (putTags (Members.ofList c.members))) := by
  have hwf := untagged_wellFormed h
  have hsorted := Members.sorted_ofList c.members
  have hput := (putTags_tagged hsorted).sorted
  refine congrArg Json.object ((Members.sorted_ofList _).ext (sorted_dropTags hput) fun name => ?_)
  rw [Members.get?_ofList hwf.members_nodup, hwf.get?_members]
  refine Eq.trans ?_ (get?_dropTags_putTags hsorted name).symm
  rw [Members.get?_ofList h.members_nodup, h.get?_members]
  by_cases htag : name ∈ tagNames
  · have hknown : name ≠ Candidate.lineName ∧ name ≠ Candidate.midName ∧ name ≠ Candidate.lineIndexName := by
      have hapart : ∀ t ∈ tagNames, t ∉ knownNames := by decide
      simpa [knownNames] using hapart name htag
    rw [if_pos htag, if_neg hknown.1, if_neg hknown.2.1, if_neg hknown.2.2]
    refine (Members.get?_filter h.extras_sorted.nodup _ name).trans ?_
    exact Option.filter_eq_none_iff.mpr fun v _ => by simpa using htag
  · rw [if_neg htag]
    have hextras : (untagged c).extras.get? name = c.extras.get? name := by
      refine (Members.get?_filter h.extras_sorted.nodup _ name).trans ?_
      cases c.extras.get? name <;> simp [Option.filter_some, htag]
    rw [hextras]
    rfl

theorem candidateFromEngine_candidateToEngine (h : c.WellFormed) :
    candidateFromEngine (candidateToEngine c) = .ok (untagged c) := by
  rw [candidateToEngine_eq rfl, candidateFromEngine_object, ← toJson_untagged h]
  exact (untagged_wellFormed h).ofJson_toJson

theorem untagged_eq_self (h : ∀ m ∈ c.extras, m.1 ∉ tagNames) : untagged c = c := by
  have hall : (c.extras.filter fun m => m.1 ∉ tagNames) = c.extras :=
    List.filter_eq_self.mpr fun m hm => by simpa using h m hm
  unfold untagged
  rw [hall]

/-- Tags that were there before make no difference. -/
theorem Tagged.of_dropTags {ms' : Members} (h : ms.Sorted) (ht : Tagged (passedOn (dropTags ms)) ms') :
    Tagged (passedOn ms) ms' := by
  refine ⟨ht.sorted, ht.module, ht.type, fun name hm hty => ?_⟩
  rw [ht.others name hm hty, Candidate.get?_passedOn h, Candidate.get?_passedOn (sorted_dropTags h),
    get?_dropTags, if_neg (by simp [tagNames, candidateTags, hm, hty])]

end Tags

/-- Candidates pass through unchanged in both directions. -/
theorem candidates_unchanged {v : Json} (hv : v.Ordered) (c : Candidate) :
    (Candidate.ofJson v = .ok c → ∃ ms ms', v = .object ms ∧
      c.extras = ms.filter (fun m => m.1 ∉ knownNames) ∧ (c.members.map Prod.fst).Nodup ∧
      c.members.Perm (passedOn ms) ∧ c.toJson = .object (passedOn ms) ∧
      candidateToEngine c = .object ms' ∧ Tagged (passedOn ms) ms' ∧
      candidateFromEngine (candidateToEngine c) = .ok (untagged c) ∧
      ((∀ m ∈ c.extras, m.1 ∉ tagNames) → candidateFromEngine (candidateToEngine c) = .ok c)) ∧
    (candidateFromEngine v = .ok c → ∃ ms ms', v = .object ms ∧
      candidateToEngine c = .object ms' ∧ Tagged (passedOn ms) ms') := by
  constructor
  · intro hread
    have hd := (Candidate.ofJson_eq_ok_iff hv).mp hread
    have hwf := Candidate.wellFormed_of_denotes hv hd
    have hback := candidateFromEngine_candidateToEngine hwf
    cases hd' : hd with
    | @object ms _ hline hmid hindex hextras =>
      have hjson := Candidate.toJson_of_denotes hv hd
      have hsorted : (passedOn ms).Sorted := (Json.ordered_object hv).1.filter _
      refine ⟨ms, _, rfl, hextras, hwf.members_nodup, Candidate.members_perm hv hd, hjson,
        candidateToEngine_eq hjson, putTags_tagged hsorted, hback, fun hno => ?_⟩
      rw [hback, untagged_eq_self hno]
  · intro hread
    cases v with
    | object ms =>
      have hv' := ordered_dropTags hv
      have hd := (Candidate.ofJson_eq_ok_iff hv').mp hread
      have hjson := Candidate.toJson_of_denotes hv' hd
      have hsorted : (passedOn (dropTags ms)).Sorted := (Json.ordered_object hv').1.filter _
      exact ⟨ms, _, rfl, candidateToEngine_eq hjson,
        (putTags_tagged hsorted).of_dropTags (Json.ordered_object hv).1⟩
    | _ => cases hread

/-- A client has put something under the name of a tag, and a null under that of the media stream. -/
theorem tag_of_client_replaced :
    let v : Json := .object [("__type__", .ofNat 5), ("candidate", .string "a"),
      ("more", .array [.null]), ("sdpMid", .null)]
    let c : Candidate :=
      { line := "a", extras := [("__type__", .ofNat 5), ("more", .array [.null])] }
    v.Ordered ∧ Candidate.ofJson v = .ok c ∧
    candidateFromEngine v = .ok { line := "a", extras := [("more", .array [.null])] } ∧
    c.toJson = .object [("__type__", .ofNat 5), ("candidate", .string "a"), ("more", .array [.null])] ∧
    (∃ ms' : Members, candidateToEngine c = .object ms' ∧ ms'.get? "__type__" = some (.string "IceCandidate")) ∧
    candidateFromEngine (candidateToEngine c) =
      .ok { line := "a", extras := [("more", .array [.null])] } ∧
    ∃ ms' : Members,
      candidateToEngine { line := "a", extras := [("more", .array [.null])] } = .object ms' ∧
      ms'.get? "sdpMid" = none := by
  intro v c
  have hv : v.Ordered := by
    refine .object (by decide) fun m hm => ?_
    simp only [List.mem_cons, List.not_mem_nil, or_false] at hm
    rcases hm with rfl | rfl | rfl | rfl
    · exact .number _
    · exact .string _
    · exact .array fun x hx => List.mem_singleton.mp hx ▸ .null
    · exact .null
  obtain ⟨ms, ms', hms, -, -, -, hjson, hengine, htagged, hback, -⟩ :=
    (candidates_unchanged hv c).1 rfl
  obtain rfl := Json.object.inj hms
  obtain ⟨ms₂, ms₂', hms₂, hengine₂, htagged₂⟩ :=
    (candidates_unchanged hv { line := "a", extras := [("more", .array [.null])] }).2 rfl
  obtain rfl := Json.object.inj hms₂
  exact ⟨hv, rfl, rfl, hjson, ⟨ms', hengine, htagged.type⟩, hback, ms₂', hengine₂,
    htagged₂.others "sdpMid" (by decide) (by decide)⟩

end Rpc

end Rostrum
