import Mathlib.Data.String.Basic
import Rostrum.Json.Reader

/-!
# Objects whose names stand in order

Objects are built with their names in strictly increasing order, so no name stands twice and `get?`
says all there is to say about the members. Main statement: every value that is read from a text is
of this kind, at every depth.
-/

namespace Rostrum.Json

namespace Members

/-- The names stand in strictly increasing order. -/
def Sorted (ms : Members) : Prop := ms.Pairwise fun m m' => m.1 < m'.1

variable {ms : Members} {name : String} {value : Json}

theorem mem_of_get? (h : ms.get? name = some value) : (name, value) ∈ ms := by
  induction ms with
  | nil => cases h
  | cons m rest ih =>
    obtain ⟨k, v⟩ := m
    by_cases hk : k = name
    · simp only [get?, hk, if_true, Option.some.injEq] at h
      subst hk h
      exact List.mem_cons_self
    · simp only [get?, hk, if_false] at h
      exact List.mem_cons_of_mem _ (ih h)

theorem mem_put {m : String × Json} (h : m ∈ ms.put name value) : m = (name, value) ∨ m ∈ ms := by
  induction ms with
  | nil => exact .inl (List.mem_singleton.mp h)
  | cons m' rest ih =>
    obtain ⟨k, v⟩ := m'
    simp only [put] at h
    split at h
    · exact List.mem_cons.mp h
    · split at h
      · exact (List.mem_cons.mp h).imp_right (List.mem_cons_of_mem _)
      · rcases List.mem_cons.mp h with rfl | h
        · exact .inr List.mem_cons_self
        · exact (ih h).imp_right (List.mem_cons_of_mem _)

theorem Sorted.put (h : ms.Sorted) (name : String) (value : Json) : (ms.put name value).Sorted := by
  induction ms with
  | nil => exact List.pairwise_singleton _ _
  | cons m rest ih =>
    obtain ⟨k, v⟩ := m
    obtain ⟨hk, hrest⟩ := List.pairwise_cons.mp h
    simp only [Members.put]
    split
    · rename_i hlt
      refine List.pairwise_cons.mpr ⟨fun m hm => ?_, h⟩
      rcases List.mem_cons.mp hm with rfl | hm
      · exact hlt
      · exact lt_trans hlt (hk m hm)
    · split
      · rename_i heq
        subst heq
        exact List.pairwise_cons.mpr ⟨hk, hrest⟩
      · rename_i hnlt hne
        refine List.pairwise_cons.mpr ⟨fun m hm => ?_, ih hrest⟩
        rcases mem_put hm with rfl | hm
        · exact lt_of_le_of_ne (not_lt.mp hnlt) (Ne.symm hne)
        · exact hk m hm

theorem get?_put (h : ms.Sorted) (name name' : String) (value : Json) :
    (ms.put name value).get? name' = if name = name' then some value else ms.get? name' := by
  induction ms with
  | nil => rfl
  | cons m rest ih =>
    obtain ⟨k, v⟩ := m
    obtain ⟨hk, hrest⟩ := List.pairwise_cons.mp h
    simp only [Members.put]
    split
    · rfl
    · split
      · rename_i heq
        subst heq
        by_cases hn : name = name' <;> simp [get?, hn]
      · rename_i hne
        by_cases hn : k = name'
        · subst hn
          simp [get?, hne]
        · simp only [get?, hn, if_false]
          exact ih hrest

theorem get?_drop (name name' : String) :
    Members.get? name' (ms.drop name) = if name = name' then none else ms.get? name' := by
  induction ms with
  | nil => simp [drop, get?]
  | cons m rest ih =>
    obtain ⟨k, v⟩ := m
    by_cases hk : k = name
    · subst hk
      by_cases hn : k = name'
      · subst hn
        simpa [drop, get?] using ih
      · simpa [drop, get?, hn] using ih
    · by_cases hn : k = name'
      · subst hn
        simp [drop, get?, hk, Ne.symm hk]
      · simpa [drop, get?, hk, hn] using ih

theorem Sorted.drop (h : ms.Sorted) (name : String) : Sorted (ms.drop name) := h.filter _

end Members

/-- In every object of a value the names stand in strictly increasing order. -/
inductive Ordered : Json → Prop where
  | null : Ordered .null
  | bool (b : Bool) : Ordered (.bool b)
  | number (n : Number) : Ordered (.number n)
  | string (s : String) : Ordered (.string s)
  | array {items : List Json} : (∀ v ∈ items, Ordered v) → Ordered (.array items)
  | object {ms : Members} : ms.Sorted → (∀ m ∈ ms, Ordered m.2) → Ordered (.object ms)

theorem ordered_object {ms : Members} (h : Ordered (.object ms)) :
    ms.Sorted ∧ ∀ m ∈ ms, Ordered m.2 := by
  cases h with
  | object hsorted hvalues => exact ⟨hsorted, hvalues⟩

theorem ordered_mkObject {ms : List (String × Json)} (h : ∀ m ∈ ms, Ordered m.2) :
    Ordered (mkObject ms) := by
  have hfold : ∀ got : Members, got.Sorted → (∀ m ∈ got, Ordered m.2) →
      Ordered (.object (ms.foldl (fun got m => Members.put m.1 m.2 got) got)) := by
    induction ms with
    | nil => exact fun got hsorted hvalues => .object hsorted hvalues
    | cons m rest ih =>
      obtain ⟨hm, hrest⟩ := List.forall_mem_cons.mp h
      intro got hsorted hvalues
      refine ih hrest _ (hsorted.put m.1 m.2) fun m' hm' => ?_
      rcases Members.mem_put hm' with rfl | hm'
      · exact hm
      · exact hvalues m' hm'
  exact hfold [] List.Pairwise.nil nofun

namespace Document

mutual

theorem ordered_value? {levels : Nat} {d : Document} {v : Json} (h : d.value? levels = some v) :
    v.Ordered := by
  cases d with
  | null | bool | number | string =>
    simp only [value?, Option.some.injEq] at h
    subst h
    constructor
  | array items =>
    cases levels with
    | zero => simp [value?] at h
    | succ levels =>
      simp only [value?, Option.bind_eq_bind, Option.bind_eq_some_iff] at h
      obtain ⟨vs, hvs, hv⟩ := h
      cases hv
      exact .array (ordered_values? hvs)
  | object members =>
    cases levels with
    | zero => simp [value?] at h
    | succ levels =>
      simp only [value?, Option.bind_eq_bind, Option.bind_eq_some_iff] at h
      obtain ⟨ms, hms, hv⟩ := h
      cases hv
      exact ordered_mkObject (ordered_memberValues? hms)
  | faulty => simp [value?] at h

theorem ordered_values? {levels : Nat} {ds : List Document} {vs : List Json}
    (h : values? levels ds = some vs) : ∀ v ∈ vs, v.Ordered := by
  cases ds with
  | nil =>
    cases h
    nofun
  | cons d ds =>
    simp only [values?, Option.bind_eq_bind, Option.bind_eq_some_iff] at h
    obtain ⟨v, hv, vs', hvs', heq⟩ := h
    cases heq
    exact List.forall_mem_cons.mpr ⟨ordered_value? hv, ordered_values? hvs'⟩

theorem ordered_memberValues? {levels : Nat} {ds : List (String × Document)}
    {ms : List (String × Json)} (h : memberValues? levels ds = some ms) : ∀ m ∈ ms, m.2.Ordered := by
  cases ds with
  | nil =>
    cases h
    nofun
  | cons d ds =>
    obtain ⟨name, d⟩ := d
    simp only [memberValues?, Option.bind_eq_bind, Option.bind_eq_some_iff] at h
    obtain ⟨v, hv, ms', hms', heq⟩ := h
    cases heq
    exact List.forall_mem_cons.mpr ⟨ordered_value? hv, ordered_memberValues? hms'⟩

end

end Document

/-- A text gives a value whose objects are in order. -/
theorem ordered_of_parse {text : String} {v : Json} (h : parse text = .ok v) : v.Ordered := by
  unfold parse at h
  cases hd : Document.parse text with
  | error fault =>
    rw [hd] at h
    cases h
  | ok d =>
    rw [hd] at h
    cases hv : d.value? maxLevels with
    | some v' =>
      simp only [Bind.bind, Except.bind, hv] at h
      cases h
      exact Document.ordered_value? hv
    | none =>
      simp only [Bind.bind, Except.bind, hv] at h
      cases h

end Rostrum.Json
