import Mathlib.Data.Multiset.AddSub
import Mathlib.Data.Multiset.MapFold
import Rostrum.Table

/-!
# Tables as multisets of values

`get?` says where a value stands, `contents` how often it stands at all. When no key stands twice
the two agree, and every operation takes one value out of the contents or puts one in.
-/

namespace Rostrum.Table

variable {κ α : Type} [DecidableEq κ]

/-- No key stands twice. -/
def Distinct (t : Table κ α) : Prop := t.keys.Nodup

/-- The values of a table, in no particular order. -/
def contents (t : Table κ α) : Multiset α := t.values

omit [DecidableEq κ] in
theorem distinct_empty : Distinct ({} : Table κ α) := List.nodup_nil

theorem find_eq_none_iff (k : κ) (es : List (κ × α)) :
    find k es = none ↔ k ∉ es.map Prod.fst := by
  induction es with
  | nil => simp [find]
  | cons e rest ih =>
    obtain ⟨k', v⟩ := e
    by_cases h : k' = k
    · simp [find, h]
    · simp [find, h, ih, Ne.symm h]

theorem get?_of_isEmpty {t : Table κ α} (h : t.entries.isEmpty) (k : κ) : t.get? k = none := by
  rw [get?, List.isEmpty_iff.mp h]
  rfl

theorem mem_of_find {k : κ} {v : α} {es : List (κ × α)} (h : find k es = some v) : (k, v) ∈ es := by
  induction es with
  | nil => simp [find] at h
  | cons e rest ih =>
    obtain ⟨k', v'⟩ := e
    by_cases hk : k' = k
    · simp only [find, hk, if_true, Option.some.injEq] at h
      subst hk h
      exact List.mem_cons_self
    · simp only [find, hk, if_false] at h
      exact List.mem_cons_of_mem _ (ih h)

theorem find_of_mem {k : κ} {v : α} {es : List (κ × α)} (hn : (es.map Prod.fst).Nodup)
    (h : (k, v) ∈ es) : find k es = some v := by
  induction es with
  | nil => simp at h
  | cons e rest ih =>
    obtain ⟨k', v'⟩ := e
    obtain ⟨hk, hn⟩ := List.nodup_cons.mp hn
    rcases List.mem_cons.mp h with heq | hm
    · obtain ⟨rfl, rfl⟩ := Prod.mk.inj heq
      simp [find]
    · have hne : k' ≠ k := by
        rintro rfl
        exact hk (List.mem_map.mpr ⟨_, hm, rfl⟩)
      simpa [find, hne] using ih hn hm

theorem mem_contents_iff {t : Table κ α} (h : t.Distinct) (v : α) :
    v ∈ t.contents ↔ ∃ k, t.get? k = some v := by
  constructor
  · intro hv
    obtain ⟨⟨k, _⟩, hm, rfl⟩ := List.mem_map.mp (Multiset.mem_coe.mp hv)
    exact ⟨k, find_of_mem h hm⟩
  · rintro ⟨k, hk⟩
    exact Multiset.mem_coe.mpr (List.mem_map.mpr ⟨_, mem_of_find hk, rfl⟩)

theorem mem_contents {t : Table κ α} {k : κ} {v : α} (h : t.get? k = some v) : v ∈ t.contents :=
  Multiset.mem_coe.mpr (List.mem_map.mpr ⟨_, mem_of_find h, rfl⟩)

theorem keys_store (k : κ) (v : α) (es : List (κ × α)) :
    (store k v es).map Prod.fst =
      if k ∈ es.map Prod.fst then es.map Prod.fst else es.map Prod.fst ++ [k] := by
  induction es with
  | nil => simp [store]
  | cons e rest ih =>
    obtain ⟨k', v'⟩ := e
    by_cases h : k' = k
    · simp [store, h]
    · simp only [store, h, if_false, List.map_cons, ih, List.mem_cons, Ne.symm h, false_or]
      split <;> simp

theorem mem_of_mem_store {k : κ} {v : α} {e : κ × α} {es : List (κ × α)} (h : e ∈ store k v es) :
    e = (k, v) ∨ e ∈ es := by
  induction es with
  | nil => exact .inl (List.mem_singleton.mp h)
  | cons first rest ih =>
    rw [store] at h
    split at h
    · rcases List.mem_cons.mp h with hnew | hold
      · exact .inl hnew
      · exact .inr (List.mem_cons_of_mem _ hold)
    · rcases List.mem_cons.mp h with hfirst | hrest
      · exact .inr (hfirst ▸ List.mem_cons_self)
      · exact (ih hrest).imp_right (List.mem_cons_of_mem _)

theorem distinct_put {t : Table κ α} (h : t.Distinct) (k : κ) (v : α) : (t.put k v).Distinct := by
  unfold Distinct keys put
  rw [keys_store]
  split
  · exact h
  · rename_i hk
    exact List.nodup_append.mpr ⟨h, by simp, by rintro a ha b hb rfl; simp_all⟩

theorem distinct_erase {t : Table κ α} (h : t.Distinct) (k : κ) : (t.erase k).Distinct :=
  List.Nodup.sublist (List.filter_sublist.map Prod.fst) h

theorem filter_key_eq_self {k : κ} {es : List (κ × α)} (h : k ∉ es.map Prod.fst) :
    (es.filter fun e => e.1 ≠ k) = es := by
  apply List.filter_eq_self.mpr
  intro e he
  simp only [decide_eq_true_eq]
  rintro rfl
  exact h (List.mem_map.mpr ⟨e, he, rfl⟩)

theorem erase_of_get?_eq_none {t : Table κ α} {k : κ} (h : t.get? k = none) : t.erase k = t := by
  obtain ⟨es⟩ := t
  exact congrArg Table.mk (filter_key_eq_self ((find_eq_none_iff k es).mp h))

theorem filter_store (k : κ) (v : α) (es : List (κ × α)) :
    ((store k v es).filter fun e => e.1 ≠ k) = es.filter fun e => e.1 ≠ k := by
  induction es with
  | nil => simp [store]
  | cons e rest ih =>
    obtain ⟨k', v'⟩ := e
    by_cases h : k' = k
    · simp [store, h]
    · simpa [store, h] using ih

theorem store_of_find {k : κ} {v : α} {es : List (κ × α)} (h : find k es = some v) : store k v es = es := by
  induction es with
  | nil => cases h
  | cons e rest ih =>
    obtain ⟨k', v'⟩ := e
    rw [find] at h
    rw [store]
    split at h
    · rename_i hk
      rw [if_pos hk, hk, Option.some.inj h]
    · rename_i hk
      rw [if_neg hk, ih h]

theorem put_of_get? {t : Table κ α} {k : κ} {v : α} (h : t.get? k = some v) : t.put k v = t :=
  congrArg Table.mk (store_of_find h)

theorem store_of_find_eq_none {k : κ} {es : List (κ × α)} (h : find k es = none) (v : α) :
    store k v es = es ++ [(k, v)] := by
  induction es with
  | nil => rfl
  | cons e rest ih =>
    obtain ⟨k', v'⟩ := e
    rw [find] at h
    split at h
    · cases h
    · rename_i hk
      rw [store, if_neg hk, ih h, List.cons_append]

/-- A new key comes last. -/
theorem entries_put_of_get?_eq_none {t : Table κ α} {k : κ} (h : t.get? k = none) (v : α) :
    (t.put k v).entries = t.entries ++ [(k, v)] :=
  store_of_find_eq_none h v

theorem erase_put (t : Table κ α) (k : κ) (v : α) : (t.put k v).erase k = t.erase k :=
  congrArg Table.mk (filter_store k v t.entries)

theorem contents_of_get? {t : Table κ α} (h : t.Distinct) {k : κ} {v : α} (hk : t.get? k = some v) :
    t.contents = v ::ₘ (t.erase k).contents := by
  obtain ⟨es⟩ := t
  change ((es.map Prod.snd : List α) : Multiset α)
    = v ::ₘ ((es.filter fun e => e.1 ≠ k).map Prod.snd : Multiset α)
  change find k es = some v at hk
  induction es with
  | nil => simp [find] at hk
  | cons e rest ih =>
    obtain ⟨k', v'⟩ := e
    obtain ⟨hnot, hn⟩ := List.nodup_cons.mp h
    by_cases hkk : k' = k
    · subst hkk
      simp only [find, if_true, Option.some.injEq] at hk
      subst hk
      rw [List.filter_cons_of_neg (by simp), filter_key_eq_self hnot, Multiset.cons_coe, List.map_cons]
    · simp only [find, hkk, if_false] at hk
      rw [List.filter_cons_of_pos (by simpa using hkk), List.map_cons, List.map_cons,
        ← Multiset.cons_coe, ← Multiset.cons_coe, ih hn hk, Multiset.cons_swap]

theorem contents_put {t : Table κ α} (h : t.Distinct) (k : κ) (v : α) :
    (t.put k v).contents = v ::ₘ (t.erase k).contents := by
  rw [contents_of_get? (distinct_put h k v) (get?_put_self t k v), erase_put]

theorem modify_of_get? {t : Table κ α} {k : κ} {v : α} (h : t.get? k = some v) (f : α → α) :
    t.modify k f = t.put k (f v) := by
  simp [modify, h]

theorem modify_of_get?_eq_none {t : Table κ α} {k : κ} (h : t.get? k = none) (f : α → α) :
    t.modify k f = t := by
  simp [modify, h]

theorem distinct_modify {t : Table κ α} (h : t.Distinct) (k : κ) (f : α → α) :
    (t.modify k f).Distinct := by
  cases hk : t.get? k with
  | none => rwa [modify_of_get?_eq_none hk]
  | some v => rw [modify_of_get? hk]; exact distinct_put h k (f v)

end Rostrum.Table
