import Mathlib.Data.List.Nodup
import Rostrum.Json.Record
import Rostrum.Proofs.Json.ReadBack

/-!
# Documents and their values, name by name

A record is read off a document, where a name may come twice. Where none does, the document and its value
agree name by name, and what a record is read as is told by the value alone.
-/

namespace Rostrum.Json

namespace Document

/-- No object in the document has two members of one name. -/
inductive Distinct : Document → Prop where
  | null : Distinct .null
  | bool (b : Bool) : Distinct (.bool b)
  | number (n : Number) : Distinct (.number n)
  | string (s : String) : Distinct (.string s)
  | array {items : List Document} : (∀ d ∈ items, Distinct d) → Distinct (.array items)
  | object {members : List (String × Document)} : (members.map Prod.fst).Nodup →
      (∀ m ∈ members, Distinct m.2) → Distinct (.object members)

variable {levels : Nat} {d : Document} {v j : Json} {members : List (String × Document)}
  {values : List (String × Json)} {name : String}

/-- A document is of the kind of its value, and a scalar is told by it. -/
theorem kind_of_value? (h : d.value? levels = some v) :
    match v with
    | .null => d = .null
    | .bool b => d = .bool b
    | .number n => d = .number n
    | .string s => d = .string s
    | .array _ => ∃ n items, levels = n + 1 ∧ d = .array items
    | .object _ => ∃ n members, levels = n + 1 ∧ d = .object members := by
  cases d with
  | null | bool | number | string =>
    simp only [value?, Option.some.injEq] at h
    subst h
    rfl
  | array items =>
    cases levels with
    | zero => simp [value?] at h
    | succ levels =>
      simp only [value?, Option.bind_eq_bind, Option.bind_eq_some_iff] at h
      obtain ⟨vs, _, hv⟩ := h
      cases hv
      exact ⟨levels, items, rfl, rfl⟩
  | object members =>
    cases levels with
    | zero => simp [value?] at h
    | succ levels =>
      simp only [value?, Option.bind_eq_bind, Option.bind_eq_some_iff] at h
      obtain ⟨ms, _, hv⟩ := h
      cases hv
      exact ⟨levels, members, rfl, rfl⟩
  | faulty => simp [value?] at h

theorem null_of_value? (h : d.value? levels = some v) : d = .null ↔ v = .null := by
  constructor
  · rintro rfl
    simpa [value?] using h.symm
  · rintro rfl
    exact kind_of_value? h

/-- A value with a member is the value of an object. -/
theorem object_of_get? (h : d.value? levels = some j) (hget : j.get? name = some v) :
    ∃ n members, levels = n + 1 ∧ d = .object members := by
  cases j with
  | object ms => exact kind_of_value? h
  | _ => cases hget

theorem integer?_of_value? {low high n : Int} (hlow : low ≤ n) (hhigh : n ≤ high)
    (h : d.value? levels = some (.ofInt n)) : integer? low high d = some n := by
  obtain rfl : d = .number (.int n) := kind_of_value? h
  exact if_pos ⟨hlow, hhigh⟩

theorem string?_of_value? {s : String} (h : d.value? levels = some (.string s)) : string? d = some s := by
  obtain rfl : d = .string s := kind_of_value? h
  rfl

theorem mem_of_member? (h : member? members name = some d) : (name, d) ∈ members := by
  obtain ⟨⟨k, d'⟩, hfind, rfl⟩ := Option.map_eq_some_iff.mp h
  have hk : k = name := by simpa using List.find?_some hfind
  exact hk ▸ List.mem_of_find?_eq_some hfind

theorem member?_cons (k : String) (d : Document) (members : List (String × Document)) (name : String) :
    member? ((k, d) :: members) name = if k = name then some d else member? members name := by
  by_cases hk : k = name <;> simp [member?, hk]

theorem names_of_memberValues? (h : memberValues? levels members = some values) :
    values.map Prod.fst = members.map Prod.fst := by
  induction members generalizing values with
  | nil =>
    cases h
    rfl
  | cons m rest ih =>
    obtain ⟨k, d⟩ := m
    simp only [memberValues?, Option.bind_eq_bind, Option.bind_eq_some_iff] at h
    obtain ⟨v, _, vs, hvs, heq⟩ := h
    cases heq
    rw [List.map_cons, List.map_cons, ih hvs]

/-! ## Members under a name -/

/-- Under each name there is a document of the value under that name, or neither is there. -/
def Agree (levels : Nat) (members : List (String × Document)) (get? : String → Option Json) : Prop :=
  ∀ name, (member? members name = none ∧ get? name = none) ∨
    ∃ d v, member? members name = some d ∧ d.value? levels = some v ∧ get? name = some v

theorem agree_memberValues? (h : memberValues? levels members = some values) :
    Agree levels members (Members.get? · values) := by
  intro name
  induction members generalizing values with
  | nil =>
    cases h
    exact .inl ⟨rfl, rfl⟩
  | cons m rest ih =>
    obtain ⟨k, d⟩ := m
    simp only [memberValues?, Option.bind_eq_bind, Option.bind_eq_some_iff] at h
    obtain ⟨v, hv, vs, hvs, heq⟩ := h
    cases heq
    rw [member?_cons]
    by_cases hk : k = name
    · exact .inr ⟨d, v, if_pos hk, hv, if_pos hk⟩
    · simpa only [Members.get?, if_neg hk] using ih hvs

/-- An object in which no name comes twice agrees with its value. -/
theorem agree_of_value? (hnodup : (members.map Prod.fst).Nodup)
    (h : (Document.object members).value? (levels + 1) = some j) : Agree levels members j.get? := by
  simp only [value?, Option.bind_eq_bind, Option.bind_eq_some_iff] at h
  obtain ⟨values, hvalues, hj⟩ := h
  cases hj
  have hnames : (values.map Prod.fst).Nodup := (names_of_memberValues? hvalues).symm ▸ hnodup
  have hget : (mkObject values).get? = (Members.get? · values) := funext (Members.get?_ofList hnames)
  exact hget ▸ agree_memberValues? hvalues

theorem record?_of_nodup (names : List String) (h : (members.map Prod.fst).Nodup) :
    record? names (.object members) = some members := by
  have hcount : ∀ name, occurrences name members ≤ 1 := by
    intro name
    have hle := List.nodup_iff_count_le_one.mp h name
    rwa [List.count, List.countP_map] at hle
  exact if_pos (List.all_eq_true.mpr fun name _ => decide_eq_true (hcount name))

namespace Agree
variable {get? : String → Option Json} (a : Agree levels members get?) {α : Type} {read : Document → Option α}
include a

theorem optional_of_none (h : get? name = none) : optional read (given? members name) = some none := by
  rcases a name with ⟨hm, _⟩ | ⟨d, v, _, _, hv⟩
  · simp [given?, hm, optional]
  · cases h.symm.trans hv

theorem optional_of_null (h : get? name = some .null) : optional read (given? members name) = some none := by
  rcases a name with ⟨_, hv⟩ | ⟨d, v, hm, hd, hv⟩
  · cases h.symm.trans hv
  · cases h.symm.trans hv
    obtain rfl := (null_of_value? hd).mpr rfl
    simp [given?, hm, optional]

theorem given?_of_some (h : get? name = some v) (hv : v ≠ .null) :
    ∃ d, member? members name = some d ∧ given? members name = some d ∧ d.value? levels = some v := by
  rcases a name with ⟨_, hnone⟩ | ⟨d, v', hm, hd, hv'⟩
  · cases h.symm.trans hnone
  · cases h.symm.trans hv'
    have hnull : d ≠ .null := fun heq => hv ((null_of_value? hd).mp heq)
    refine ⟨d, hm, ?_, hd⟩
    rw [given?, hm]
    cases d with
    | null => exact absurd rfl hnull
    | _ => rfl

theorem optional_of_some {x : α} (h : get? name = some v) (hv : v ≠ .null)
    (hread : ∀ d, member? members name = some d → d.value? levels = some v → read d = some x) :
    optional read (given? members name) = some (some x) := by
  obtain ⟨d, hm, hgiven, hd⟩ := a.given?_of_some h hv
  rw [hgiven, optional, hread d hm hd]
  rfl

/-- A member that may be missing has a value that is not null, or none. -/
theorem optional_value? (name : String) :
    ∃ found, optional (·.value? levels) (given? members name) = some found := by
  cases h : get? name with
  | none => exact ⟨none, a.optional_of_none h⟩
  | some v =>
    by_cases hv : v = .null
    · exact ⟨none, a.optional_of_null (hv ▸ h)⟩
    · exact ⟨some v, a.optional_of_some h hv fun d _ hd => hd⟩

end Agree

end Document

/-! ## Texts of values -/

/--
The text gives this value: it nests no deeper than texts may, its numbers are in range, and no object in
it has two members of one name.
-/
def Spells (text : String) (j : Json) : Prop :=
  ∃ d, Document.parse text = .ok d ∧ d.Distinct ∧ d.value? maxLevels = some j

theorem distinct_document {j : Json} (h : j.Ordered) : j.document.Distinct := by
  induction j using induction_on_parts with
  | null => exact .null
  | bool b => exact .bool b
  | number n => exact .number n
  | string s => exact .string s
  | array xs ih =>
    cases h with
    | array hxs =>
      refine .array fun d hd => ?_
      obtain ⟨x, hx, rfl⟩ := List.mem_map.mp (documentsOfItems_eq xs ▸ hd)
      exact ih x hx (hxs x hx)
  | object ms ih =>
    cases h with
    | object hsorted hms =>
      refine .object ?_ fun m hm => ?_
      · rw [documentsOfMembers_eq, List.map_map]
        exact hsorted.nodup
      · obtain ⟨m', hm', rfl⟩ := List.mem_map.mp (documentsOfMembers_eq ms ▸ hm)
        exact ih m' hm' (hms m' hm')

/-- A value without fractions is spelled by the text it is written as. -/
theorem spells_text {j : Json} (hordered : j.Ordered) (hwhole : j.Whole) (hdepth : j.depth ≤ maxLevels) :
    Spells j.text j :=
  ⟨j.document, Document.parse_text hwhole hdepth, distinct_document hordered, value?_document hordered hdepth⟩

end Rostrum.Json
