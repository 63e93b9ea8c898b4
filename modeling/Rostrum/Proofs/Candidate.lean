import Rostrum.Candidate
import Rostrum.Proofs.Json.Extensional

/-!
# Which values are candidates

`Candidate.Denotes` says what a candidate's object looks like, without saying how it is read. Main
statement: a value whose names stand in order is read as a candidate exactly when it denotes it.
-/

namespace Rostrum

namespace Json

/-- A member that may be missing or null. -/
inductive Optional {α : Type} (P : Json → α → Prop) : Option Json → Option α → Prop where
  | missing : Optional P none none
  | null : Optional P (some .null) none
  | given {v : Json} {x : α} : P v x → Optional P (some v) (some x)

def IsString (v : Json) (s : String) : Prop := v = .string s

def IsWord32 (v : Json) (n : Nat) : Prop := v = .ofNat n ∧ n ≤ maxWord32

theorem readString_eq_ok_iff {v : Json} {s : String} : readString v = .ok s ↔ IsString v s := by
  cases v <;> simp [readString, IsString]

theorem readWord32_eq_ok_iff {v : Json} {n : Nat} : readWord32 v = .ok n ↔ IsWord32 v n := by
  cases v with
  | number x =>
    cases x with
    | int i =>
      by_cases hi : 0 ≤ i ∧ i ≤ maxWord32
      · simp only [readWord32, hi, and_self, if_true, IsWord32, ofNat, Except.ok.injEq, number.injEq,
          Number.int.injEq]
        omega
      · simp only [readWord32, hi, if_false, IsWord32, ofNat, number.injEq, Number.int.injEq,
          reduceCtorEq, false_iff]
        omega
    | float x => simp [readWord32, IsWord32, ofNat]
  | _ => simp [readWord32, IsWord32, ofNat]

theorem readOptional_of_ne_null {α : Type} (read : Json → Except ShapeFault α) {v : Json}
    (h : v ≠ .null) : readOptional read v = some <$> read v := by
  cases v with
  | null => exact absurd rfl h
  | _ => rfl

theorem readOptional_eq_ok_iff {α : Type} {read : Json → Except ShapeFault α} {P : Json → α → Prop}
    (hread : ∀ v x, read v = .ok x ↔ P v x) (hnull : ∀ x, ¬ P .null x) {v : Json} {x : Option α} :
    readOptional read v = .ok x ↔ Optional P (some v) x := by
  by_cases hv : v = .null
  · subst hv
    constructor
    · intro h
      cases h
      exact .null
    · intro h
      cases h with
      | null => rfl
      | given h => exact absurd h (hnull _)
  · rw [readOptional_of_ne_null read hv]
    constructor
    · intro h
      cases hy : read v with
      | error fault =>
        rw [hy] at h
        cases h
      | ok y =>
        rw [hy] at h
        cases h
        exact .given ((hread v y).mp hy)
    · intro h
      cases h with
      | null => exact absurd rfl hv
      | given h =>
        rw [(hread v _).mpr h]
        rfl

end Json

namespace Candidate

open Json (IsString IsWord32 Optional)

/-- A candidate as the value that denotes it: the three known members, and all others as they are. -/
inductive Denotes : Json → Candidate → Prop where
  | object {ms : Json.Members} {c : Candidate} :
      ms.get? lineName = some (.string c.line) →
      Optional IsString (ms.get? midName) c.mid →
      Optional IsWord32 (ms.get? lineIndexName) c.lineIndex →
      c.extras = ms.filter (fun m => m.1 ∉ knownNames) →
      Denotes (.object ms) c

/-- What reading a member makes of a part of the candidate: nothing new if the member is missing. -/
def Updates {β : Type} (P : Json → β → Prop) : Option Json → β → β → Prop
  | none, old, new => new = old
  | some v, _, new => P v new

/-- What reading members makes of what was read before. -/
@[mk_iff]
structure ReadsTo (ms : Json.Members) (got got' : Option String × Candidate) : Prop where
  line : Updates (fun v line => ∃ s, IsString v s ∧ line = some s) (ms.get? lineName) got.1 got'.1
  mid : Updates (fun v => Optional IsString (some v)) (ms.get? midName) got.2.mid got'.2.mid
  lineIndex : Updates (fun v => Optional IsWord32 (some v)) (ms.get? lineIndexName) got.2.lineIndex
    got'.2.lineIndex
  extras : got'.2.extras = got.2.extras ++ ms.filter (fun m => m.1 ∉ knownNames)
  rest : got'.2.line = got.2.line

variable {ms : Json.Members} {got got' : Option String × Candidate} {name : String} {v : Json}

theorem readMembers_cons : readMembers got ((name, v) :: ms) = .ok got' ↔
    ∃ got₁, readMember got name v = .ok got₁ ∧ readMembers got₁ ms = .ok got' := by
  rw [readMembers]
  cases readMember got name v with
  | error fault => exact ⟨nofun, nofun⟩
  | ok got₁ =>
    constructor
    · exact fun h => ⟨got₁, rfl, h⟩
    · rintro ⟨_, ⟨⟩, h⟩
      exact h

theorem names_distinct : lineName ≠ midName ∧ lineName ≠ lineIndexName ∧ midName ≠ lineIndexName := by
  decide

theorem readMember_line :
    readMember got lineName v = .ok got' ↔ ∃ s, IsString v s ∧ got' = (some s, got.2) := by
  simp only [readMember, if_true, ← Json.readString_eq_ok_iff]
  cases Json.readString v with
  | error fault => exact ⟨nofun, nofun⟩
  | ok s =>
    constructor
    · rintro ⟨⟩
      exact ⟨s, rfl, rfl⟩
    · rintro ⟨_, ⟨⟩, rfl⟩
      rfl

theorem readMember_mid : readMember got midName v = .ok got' ↔
    ∃ mid, Optional IsString (some v) mid ∧ got' = (got.1, { got.2 with mid := mid }) := by
  have hread : ∀ mid, Json.readOptional Json.readString v = .ok mid ↔ Optional IsString (some v) mid :=
    fun mid => Json.readOptional_eq_ok_iff (fun _ _ => Json.readString_eq_ok_iff) fun _ h => by cases h
  simp only [readMember, names_distinct.1.symm, if_false, if_true, ← hread]
  cases Json.readOptional Json.readString v with
  | error fault => exact ⟨nofun, nofun⟩
  | ok mid =>
    constructor
    · rintro ⟨⟩
      exact ⟨mid, rfl, rfl⟩
    · rintro ⟨_, ⟨⟩, rfl⟩
      rfl

theorem readMember_lineIndex : readMember got lineIndexName v = .ok got' ↔
    ∃ i, Optional IsWord32 (some v) i ∧ got' = (got.1, { got.2 with lineIndex := i }) := by
  have hread : ∀ i, Json.readOptional Json.readWord32 v = .ok i ↔ Optional IsWord32 (some v) i :=
    fun i => Json.readOptional_eq_ok_iff (fun _ _ => Json.readWord32_eq_ok_iff)
      fun _ h => by cases h.1
  simp only [readMember, names_distinct.2.1.symm, names_distinct.2.2.symm, if_false, if_true, ← hread]
  cases Json.readOptional Json.readWord32 v with
  | error fault => exact ⟨nofun, nofun⟩
  | ok i =>
    constructor
    · rintro ⟨⟩
      exact ⟨i, rfl, rfl⟩
    · rintro ⟨_, ⟨⟩, rfl⟩
      rfl

theorem readMember_other (h : name ∉ knownNames) : readMember got name v = .ok got' ↔
    got' = (got.1, { got.2 with extras := got.2.extras ++ [(name, v)] }) := by
  simp only [knownNames, List.mem_cons, List.not_mem_nil, or_false, not_or] at h
  obtain ⟨hline, hmid, hindex⟩ := h
  simp only [readMember, hline, hmid, hindex, if_false]
  exact ⟨fun h => (Except.ok.inj h).symm, fun h => congrArg Except.ok h.symm⟩

/-- Members with distinct names can be read in any order. -/
theorem readMembers_eq_ok_iff (h : (ms.map Prod.fst).Nodup) :
    readMembers got ms = .ok got' ↔ ReadsTo ms got got' := by
  obtain ⟨hlm, hli, hmi⟩ := names_distinct
  induction ms generalizing got with
  | nil =>
    constructor
    · rintro ⟨⟩
      exact ⟨rfl, rfl, rfl, (List.append_nil _).symm, rfl⟩
    · rintro ⟨hline, hmid, hindex, hextras, hrest⟩
      obtain ⟨line, c⟩ := got
      obtain ⟨line', c'⟩ := got'
      obtain ⟨_, _, _, _⟩ := c
      obtain ⟨_, _, _, _⟩ := c'
      simp only [Updates, Json.Members.get?, List.filter_nil, List.append_nil] at *
      subst hline hmid hindex hextras hrest
      rfl
  | cons m rest ih =>
    obtain ⟨name, v⟩ := m
    obtain ⟨hname, hrest⟩ := List.nodup_cons.mp h
    have hnone : Json.Members.get? name rest = none := Json.Members.get?_eq_none_iff.mpr hname
    rw [readMembers_cons]
    simp only [ih hrest]
    by_cases hknown : name ∈ knownNames
    · have hfilter : List.filter (fun m => m.1 ∉ knownNames) ((name, v) :: rest) =
          rest.filter fun m => m.1 ∉ knownNames := List.filter_cons_of_neg (by simpa using hknown)
      simp only [knownNames, List.mem_cons, List.not_mem_nil, or_false] at hknown
      rcases hknown with rfl | rfl | rfl
      · simp only [readMember_line, readsTo_iff, hfilter, Json.Members.get?, hnone, Updates, if_true,
          hlm, hli, if_false]
        constructor
        · rintro ⟨_, ⟨s, hs, rfl⟩, hline, hothers⟩
          exact ⟨⟨s, hs, hline⟩, hothers⟩
        · rintro ⟨⟨s, hs, hline⟩, hothers⟩
          exact ⟨_, ⟨s, hs, rfl⟩, hline, hothers⟩
      · simp only [readMember_mid, readsTo_iff, hfilter, Json.Members.get?, hnone, Updates, if_true,
          hlm.symm, hmi, if_false]
        constructor
        · rintro ⟨_, ⟨mid, hs, rfl⟩, hline, hmid, hothers⟩
          exact ⟨hline, hmid ▸ hs, hothers⟩
        · rintro ⟨hline, hmid, hothers⟩
          exact ⟨_, ⟨_, hmid, rfl⟩, hline, rfl, hothers⟩
      · simp only [readMember_lineIndex, readsTo_iff, hfilter, Json.Members.get?, hnone, Updates, if_true,
          hli.symm, hmi.symm, if_false]
        constructor
        · rintro ⟨_, ⟨i, hi, rfl⟩, hline, hmid, hindex, hothers⟩
          exact ⟨hline, hmid, hindex ▸ hi, hothers⟩
        · rintro ⟨hline, hmid, hindex, hothers⟩
          exact ⟨_, ⟨_, hindex, rfl⟩, hline, hmid, rfl, hothers⟩
    · have hfilter : List.filter (fun m => m.1 ∉ knownNames) ((name, v) :: rest) =
          (name, v) :: rest.filter fun m => m.1 ∉ knownNames :=
        List.filter_cons_of_pos (by simpa using hknown)
      have hne : name ≠ lineName ∧ name ≠ midName ∧ name ≠ lineIndexName := by
        simpa [knownNames] using hknown
      simp only [readMember_other hknown, readsTo_iff, hfilter, Json.Members.get?, hne, if_false,
        exists_eq_left, List.append_assoc, List.singleton_append]

theorem optional_iff_updates {α : Type} {P : Json → α → Prop} {found : Option Json} {x : Option α} :
    Optional P found x ↔ Updates (fun v => Optional P (some v)) found none x := by
  cases found with
  | none =>
    constructor
    · rintro ⟨⟩
      rfl
    · rintro ⟨⟩
      exact .missing
  | some v => exact Iff.rfl

theorem ofJson_object {c : Candidate} : ofJson (.object ms) = .ok c ↔
    ∃ line c', readMembers (none, { line := "" }) ms = .ok (some line, c') ∧
      c = { c' with line := line } := by
  simp only [ofJson]
  cases readMembers (none, { line := "" }) ms with
  | error fault => exact ⟨nofun, nofun⟩
  | ok got =>
    obtain ⟨line, c'⟩ := got
    cases line with
    | none => exact ⟨nofun, nofun⟩
    | some line =>
      constructor
      · rintro ⟨⟩
        exact ⟨line, c', rfl, rfl⟩
      · rintro ⟨_, _, ⟨⟩, h⟩
        exact congrArg Except.ok h.symm

/-- Reading a candidate accepts exactly the values that denote one. -/
theorem ofJson_eq_ok_iff {c : Candidate} (h : v.Ordered) : ofJson v = .ok c ↔ Denotes v c := by
  cases h with
  | object hsorted _ =>
    rename_i ms _
    rw [ofJson_object]
    constructor
    · rintro ⟨line, c', hread, rfl⟩
      obtain ⟨hline, hmid, hindex, hextras, _⟩ := (readMembers_eq_ok_iff hsorted.nodup).mp hread
      refine .object ?_ (optional_iff_updates.mpr hmid) (optional_iff_updates.mpr hindex) hextras
      cases hg : ms.get? lineName with
      | none =>
        rw [hg] at hline
        cases hline
      | some v =>
        rw [hg] at hline
        obtain ⟨s, rfl, hs⟩ := hline
        exact congrArg (some ∘ Json.string) (Option.some.inj hs).symm
    · rintro ⟨hline, hmid, hindex, hextras⟩
      refine ⟨c.line, { c with line := "" }, (readMembers_eq_ok_iff hsorted.nodup).mpr
        ⟨?_, optional_iff_updates.mp hmid, optional_iff_updates.mp hindex, hextras, rfl⟩, rfl⟩
      rw [hline]
      exact ⟨c.line, rfl, rfl⟩
  | _ => exact ⟨nofun, nofun⟩

end Candidate

end Rostrum
