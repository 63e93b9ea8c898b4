import Rostrum.Proofs.Json.Ordered

/-!
# Objects by their members

Two objects whose names stand in order are equal when every name has the same value in both. So what an
operation makes of an object is said by what it does to `get?`, and the object that is put together from
members with distinct names has exactly these members.
-/

namespace Rostrum.Json.Members

instance (ms : Members) : Decidable ms.Sorted :=
  inferInstanceAs (Decidable (List.Pairwise (fun m m' => m.1 < m'.1) ms))

variable {ms ms' : Members} {name : String} {value : Json}

theorem get?_of_mem (h : (ms.map Prod.fst).Nodup) (hm : (name, value) ∈ ms) :
    ms.get? name = some value := by
  induction ms with
  | nil => cases hm
  | cons m rest ih =>
    obtain ⟨k, v⟩ := m
    obtain ⟨hk, hrest⟩ := List.nodup_cons.mp h
    rcases List.mem_cons.mp hm with heq | hm
    · cases heq
      exact if_pos rfl
    · have hne : k ≠ name := by
        rintro rfl
        exact hk (List.mem_map.mpr ⟨_, hm, rfl⟩)
      rw [get?, if_neg hne]
      exact ih hrest hm

theorem get?_eq_none_iff : ms.get? name = none ↔ name ∉ ms.map Prod.fst := by
  induction ms with
  | nil => simp [get?]
  | cons m rest ih =>
    obtain ⟨k, v⟩ := m
    by_cases hk : k = name
    · simp [get?, hk]
    · simp [get?, hk, ih, Ne.symm hk]

theorem Sorted.nodup (h : ms.Sorted) : (ms.map Prod.fst).Nodup :=
  List.pairwise_map.mpr (h.imp fun hlt => ne_of_lt hlt)

/-- Members with distinct names are told by the value under each name, but for their order. -/
theorem perm_of_get? (h : (ms.map Prod.fst).Nodup) (h' : (ms'.map Prod.fst).Nodup)
    (hget : ∀ name, ms.get? name = ms'.get? name) : List.Perm ms ms' := by
  have hnodup : ∀ {ms : Members}, (ms.map Prod.fst).Nodup → List.Nodup ms := fun h =>
    List.Pairwise.of_map Prod.fst (fun _ _ hne heq => hne (congrArg Prod.fst heq)) h
  apply (List.perm_ext_iff_of_nodup (hnodup h) (hnodup h')).mpr
  rintro ⟨name, value⟩
  constructor
  · intro hm
    exact mem_of_get? ((hget name).symm.trans (get?_of_mem h hm))
  · intro hm
    exact mem_of_get? ((hget name).trans (get?_of_mem h' hm))

theorem Sorted.ext (h : ms.Sorted) (h' : ms'.Sorted) (hget : ∀ name, ms.get? name = ms'.get? name) :
    ms = ms' :=
  (perm_of_get? h.nodup h'.nodup hget).eq_of_pairwise
    (fun _ _ _ _ hlt hlt' => absurd hlt' (lt_asymm hlt)) h h'

theorem get?_append (ms ms' : Members) (name : String) :
    Members.get? name (ms ++ ms') = (ms.get? name).or (ms'.get? name) := by
  induction ms with
  | nil => rfl
  | cons m rest ih =>
    obtain ⟨k, v⟩ := m
    by_cases hk : k = name
    · simp [get?, hk]
    · simpa [get?, hk] using ih

theorem get?_filter (h : (ms.map Prod.fst).Nodup) (p : String × Json → Bool) (name : String) :
    Members.get? name (ms.filter p) = (ms.get? name).filter fun v => p (name, v) := by
  induction ms with
  | nil => rfl
  | cons m rest ih =>
    obtain ⟨k, v⟩ := m
    obtain ⟨hk, hrest⟩ := List.nodup_cons.mp h
    have hkeep := ih hrest
    by_cases hname : k = name
    · subst hname
      have hnone : Members.get? k rest = none := get?_eq_none_iff.mpr hk
      rw [hnone] at hkeep
      cases hp : p (k, v) with
      | true => simp [hp, get?, Option.filter_some]
      | false => simpa [hp, get?, Option.filter_some] using hkeep
    · cases hp : p (k, v) with
      | true => simpa [hp, get?, hname] using hkeep
      | false => simpa [hp, get?, hname] using hkeep

section Building
variable {l : List (String × Json)}

theorem sorted_foldl_put (h : ms.Sorted) :
    Sorted (l.foldl (fun got m => Members.put m.1 m.2 got) ms) := by
  induction l generalizing ms with
  | nil => exact h
  | cons m rest ih => exact ih (h.put m.1 m.2)

theorem sorted_ofList (l : List (String × Json)) : (ofList l).Sorted :=
  sorted_foldl_put List.Pairwise.nil

/-- Of two members with one name the later one counts; here no name comes twice. -/
theorem get?_foldl_put (h : ms.Sorted) (hl : (l.map Prod.fst).Nodup) (name : String) :
    Members.get? name (l.foldl (fun got m => Members.put m.1 m.2 got) ms) =
      (Members.get? name l).or (ms.get? name) := by
  induction l generalizing ms with
  | nil => rfl
  | cons m rest ih =>
    obtain ⟨k, v⟩ := m
    obtain ⟨hk, hrest⟩ := List.nodup_cons.mp hl
    refine (ih (h.put k v) hrest).trans ?_
    rw [get?_put h]
    by_cases hname : k = name
    · subst hname
      have hnone : Members.get? k rest = none := get?_eq_none_iff.mpr hk
      simp [get?, hnone]
    · simp [get?, hname]

theorem get?_ofList (hl : (l.map Prod.fst).Nodup) (name : String) :
    (ofList l).get? name = Members.get? name l := by
  refine (get?_foldl_put List.Pairwise.nil hl name).trans ?_
  exact Option.or_none

theorem ofList_eq_self (h : ms.Sorted) : ofList ms = ms :=
  (sorted_ofList ms).ext h (get?_ofList h.nodup)

end Building

end Rostrum.Json.Members
