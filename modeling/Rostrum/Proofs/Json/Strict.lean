import Rostrum.Json.Reader

/-!
# What is read strictly has a value

A strict reader refuses numbers out of range and halves of surrogate pairs where they stand, and texts
that nest too deep. Main statement: a document that it has read has a value at that depth.
-/

namespace Rostrum.Json

namespace Document

mutual

/-- A document has the same value for a reader that goes deeper. -/
theorem value?_mono {levels levels' : Nat} (hle : levels ≤ levels') {d : Document} {v : Json}
    (h : d.value? levels = some v) : d.value? levels' = some v := by
  cases d with
  | null | bool | number | string =>
    rw [value?] at h ⊢
    exact h
  | array items =>
    obtain _ | levels := levels
    · simp [value?] at h
    · obtain ⟨deeper, rfl⟩ : ∃ n, levels' = n + 1 := ⟨levels' - 1, by omega⟩
      simp only [value?, Option.bind_eq_bind, Option.bind_eq_some_iff] at h ⊢
      obtain ⟨vs, hvs, hv⟩ := h
      exact ⟨vs, values?_mono (by omega) hvs, hv⟩
  | object members =>
    obtain _ | levels := levels
    · simp [value?] at h
    · obtain ⟨deeper, rfl⟩ : ∃ n, levels' = n + 1 := ⟨levels' - 1, by omega⟩
      simp only [value?, Option.bind_eq_bind, Option.bind_eq_some_iff] at h ⊢
      obtain ⟨vs, hvs, hv⟩ := h
      exact ⟨vs, memberValues?_mono (by omega) hvs, hv⟩
  | faulty => simp [value?] at h

theorem values?_mono {levels levels' : Nat} (hle : levels ≤ levels') {ds : List Document}
    {vs : List Json} (h : values? levels ds = some vs) : values? levels' ds = some vs := by
  cases ds with
  | nil => exact h
  | cons d ds =>
    simp only [values?, Option.bind_eq_bind, Option.bind_eq_some_iff] at h ⊢
    obtain ⟨v, hv, vs', hvs', heq⟩ := h
    exact ⟨v, value?_mono hle hv, vs', values?_mono hle hvs', heq⟩

theorem memberValues?_mono {levels levels' : Nat} (hle : levels ≤ levels')
    {ds : List (String × Document)} {vs : List (String × Json)}
    (h : memberValues? levels ds = some vs) : memberValues? levels' ds = some vs := by
  cases ds with
  | nil => exact h
  | cons d ds =>
    obtain ⟨name, d⟩ := d
    simp only [memberValues?, Option.bind_eq_bind, Option.bind_eq_some_iff] at h ⊢
    obtain ⟨v, hv, vs', hvs', heq⟩ := h
    exact ⟨v, value?_mono hle hv, vs', memberValues?_mono hle hvs', heq⟩

end

def Valued (levels : Nat) (d : Document) : Prop := ∃ v, d.value? levels = some v

variable {levels : Nat}

theorem valued_array {ds : List Document} (h : ∀ d ∈ ds, d.Valued levels) :
    Valued (levels + 1) (.array ds) := by
  have hvalues : ∃ vs, values? levels ds = some vs := by
    induction ds with
    | nil => exact ⟨[], rfl⟩
    | cons d ds ih =>
      obtain ⟨⟨v, hv⟩, hrest⟩ := List.forall_mem_cons.mp h
      obtain ⟨vs, hvs⟩ := ih hrest
      exact ⟨v :: vs, by simp [values?, hv, hvs]⟩
  obtain ⟨vs, hvs⟩ := hvalues
  exact ⟨.array vs, by simp [value?, hvs]⟩

theorem valued_object {members : List (String × Document)} (h : ∀ m ∈ members, m.2.Valued levels) :
    Valued (levels + 1) (.object members) := by
  have hvalues : ∃ vs, memberValues? levels members = some vs := by
    induction members with
    | nil => exact ⟨[], rfl⟩
    | cons m rest ih =>
      obtain ⟨⟨v, hv⟩, hrest⟩ := List.forall_mem_cons.mp h
      obtain ⟨vs, hvs⟩ := ih hrest
      exact ⟨(m.1, v) :: vs, by simp [memberValues?, hv, hvs]⟩
  obtain ⟨vs, hvs⟩ := hvalues
  exact ⟨mkObject vs, by simp [value?, hvs]⟩

end Document

namespace Reader

section Except
variable {α β : Type} {x : Except Fault α} {f : α → Except Fault β} {b : β}

theorem bind_eq_ok (h : (x >>= f) = .ok b) : ∃ a, x = .ok a ∧ f a = .ok b := by
  cases x with
  | error fault => cases h
  | ok a => exact ⟨a, rfl, h⟩

end Except

/-! ## Strings -/

theorem codeEscape_strict {text rest : List Char} {c : Option Char}
    (h : codeEscape .strict text = .ok (c, rest)) : c.isSome := by
  obtain ⟨⟨code, rest'⟩, _, h⟩ := bind_eq_ok h
  dsimp only at h
  split at h
  · cases h
    rfl
  · split at h
    · cases hlow : lowSurrogate rest' with
      | ok low =>
        rw [hlow] at h
        cases h
        rfl
      | error fault =>
        rw [hlow] at h
        cases h
    · cases h

theorem escape_strict {text rest : List Char} {c : Option Char}
    (h : escape .strict text = .ok (c, rest)) : c.isSome := by
  unfold escape at h
  split at h
  · cases h
  · exact codeEscape_strict h
  · split at h
    · cases h
      rfl
    · cases h

theorem stringBody_strict {fuel : Nat} {seen : List Char} {text rest : List Char} {s : Option String}
    (h : stringBody .strict fuel (some seen) text = .ok (s, rest)) : s.isSome := by
  induction fuel generalizing seen text with
  | zero => cases text <;> cases h
  | succ fuel ih =>
    cases text with
    | nil => cases h
    | cons c text =>
      rw [stringBody] at h
      split at h
      · cases h
        rfl
      · split at h
        · obtain ⟨⟨d, rest'⟩, hescape, h⟩ := bind_eq_ok h
          obtain ⟨d, rfl⟩ := Option.isSome_iff_exists.mp (escape_strict hescape)
          exact ih h
        · split at h
          · cases h
          · exact ih h

/-! ## Containers -/

section Containers
variable {α : Type} {item : Reader α} {P : α → Prop}
  (hitem : ∀ text x rest, item text = .ok (x, rest) → P x)
include hitem

theorem items_all {close : Char} {fuel : Nat} {seen : List α} {text rest : List Char} {xs : List α}
    (hseen : ∀ x ∈ seen, P x) (h : items item close fuel seen text = .ok (xs, rest)) : ∀ x ∈ xs, P x := by
  induction fuel generalizing seen text with
  | zero => cases h
  | succ fuel ih =>
    obtain ⟨⟨x, rest₁⟩, hx, h⟩ := bind_eq_ok h
    obtain ⟨⟨again, rest₂⟩, _, h⟩ := bind_eq_ok h
    have hmore : ∀ y ∈ x :: seen, P y := List.forall_mem_cons.mpr ⟨hitem _ _ _ hx, hseen⟩
    dsimp only at h
    split at h
    · exact ih hmore h
    · cases h
      exact fun y hy => hmore y (List.mem_reverse.mp hy)

/-- All items of a container are what its reader reads. -/
theorem container_all {close : Char} {size : Nat} {text rest : List Char} {xs : List α}
    (h : container item close size text = .ok (xs, rest)) : ∀ x ∈ xs, P x := by
  unfold container at h
  split at h
  · cases h
  · split at h
    · cases h
      nofun
    · exact items_all hitem (fun _ hx => by cases hx) h

end Containers

theorem member_strict {size : Nat} {value : Reader Document} {P : Document → Prop}
    (hvalue : ∀ text d rest, value text = .ok (d, rest) → P d) {text rest : List Char}
    {m : Option String × Document} (h : member .strict size value text = .ok (m, rest)) :
    m.1.isSome ∧ P m.2 := by
  unfold member at h
  split at h
  · obtain ⟨⟨name, rest₁⟩, hname, h⟩ := bind_eq_ok h
    dsimp only at h
    split at h
    · cases h
    · obtain ⟨⟨d, rest₂⟩, hd, h⟩ := bind_eq_ok h
      cases h
      exact ⟨stringBody_strict hname, hvalue _ _ _ hd⟩
    · cases h
  · cases h

theorem objectOf_strict {ms : List (Option String × Document)} {P : Document → Prop}
    (h : ∀ m ∈ ms, m.1.isSome ∧ P m.2) :
    ∃ members, objectOf ms = .object members ∧ ∀ m ∈ members, P m.2 := by
  have hnamed : ∃ members, (ms.mapM fun m => m.1.map fun name => (name, m.2)) = some members ∧
      ∀ m ∈ members, P m.2 := by
    induction ms with
    | nil => exact ⟨[], rfl, nofun⟩
    | cons m rest ih =>
      obtain ⟨⟨hname, hm⟩, hrest⟩ := List.forall_mem_cons.mp h
      obtain ⟨members, hmembers, hall⟩ := ih hrest
      obtain ⟨name, hname⟩ := Option.isSome_iff_exists.mp hname
      refine ⟨(name, m.2) :: members, ?_, List.forall_mem_cons.mpr ⟨hm, hall⟩⟩
      simp [List.mapM_cons, hname, hmembers]
  obtain ⟨members, hmembers, hall⟩ := hnamed
  exact ⟨members, by rw [objectOf, hmembers], hall⟩

theorem number_strict {negative : Bool} {text rest : List Char} {d : Document}
    (h : number .strict negative text = .ok (d, rest)) : ∃ n, d = .number n := by
  obtain ⟨⟨n, rest'⟩, _, h⟩ := bind_eq_ok h
  cases hn : n.value? with
  | some v =>
    simp only [hn] at h
    cases h
    exact ⟨v, rfl⟩
  | none =>
    simp only [hn] at h
    cases h

theorem named_eq_ok {d d' : Document} {letters text rest : List Char}
    (h : named d letters text = .ok (d', rest)) : d' = d := by
  obtain ⟨⟨⟨⟩, rest'⟩, _, h⟩ := bind_eq_ok h
  cases h
  rfl

/-! ## Documents -/

theorem valued_document {size levels : Nat} {text rest : List Char} {d : Document}
    (h : document .strict size levels text = .ok (d, rest)) : d.Valued levels := by
  -- By depth: the items of a container are read one level below it.
  induction levels using Nat.strongRecOn generalizing text rest d with
  | _ levels ih =>
    have hscalar : ∀ {negative : Bool} {text rest : List Char} {d : Document},
        number .strict negative text = .ok (d, rest) → d.Valued levels := by
      intro negative text rest d h
      obtain ⟨n, rfl⟩ := number_strict h
      exact ⟨.number n, rfl⟩
    unfold document at h
    split at h
    · cases h
    · exact named_eq_ok h ▸ ⟨.null, rfl⟩
    · exact named_eq_ok h ▸ ⟨.bool true, rfl⟩
    · exact named_eq_ok h ▸ ⟨.bool false, rfl⟩
    · exact hscalar h
    · obtain ⟨⟨s, rest'⟩, hs, h⟩ := bind_eq_ok h
      obtain ⟨s, rfl⟩ := Option.isSome_iff_exists.mp (stringBody_strict hs)
      cases h
      exact ⟨.string s, rfl⟩
    · split at h
      · cases h
      · rename_i levels
        obtain ⟨⟨ds, rest'⟩, hds, h⟩ := bind_eq_ok h
        cases h
        exact Document.valued_array (container_all (fun _ _ _ hd => ih levels (by omega) hd) hds)
    · split at h
      · cases h
      · rename_i levels
        obtain ⟨⟨ms, rest'⟩, hms, h⟩ := bind_eq_ok h
        cases h
        have hall := container_all
          (fun _ _ _ hm => member_strict (fun _ _ _ hd => ih levels (by omega) hd) hm) hms
        obtain ⟨members, hmembers, hvalued⟩ := objectOf_strict hall
        rw [hmembers]
        exact Document.valued_object hvalued
    · split at h
      · exact hscalar h
      · cases h

end Reader

theorem Document.valued_of_parse {text : String} {d : Document} (h : parse text = .ok d) :
    d.Valued maxLevels := by
  obtain ⟨⟨d', rest⟩, hd, h⟩ := Reader.bind_eq_ok h
  dsimp only at h
  split at h
  · cases h
    exact Reader.valued_document hd
  · cases h

/-- The value of a text is that of its document. -/
theorem parse_eq_ok_iff {text : String} {v : Json} :
    parse text = .ok v ↔ ∃ d, Document.parse text = .ok d ∧ d.value? maxLevels = some v := by
  unfold parse
  cases hd : Document.parse text with
  | error fault => exact ⟨nofun, nofun⟩
  | ok d =>
    obtain ⟨w, hw⟩ := Document.valued_of_parse hd
    simp only [bind, Except.bind, hw, Except.ok.injEq, exists_eq_left']
    exact ⟨fun h => congrArg some (Except.ok.inj h), fun h => congrArg Except.ok (Option.some.inj h)⟩

end Rostrum.Json
