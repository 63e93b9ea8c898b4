import Rostrum.Json.Reader
import Rostrum.Json.Writer

/-!
# Integers that are written and read back

An integer is written by its decimal digits, without a zero in front. A reader takes all of these digits
and stops at whatever follows an item, and an integer of 64 bits, with or without a sign, is read as
itself.
-/

namespace Rostrum

namespace Json.Reader

/-- The text that follows does not go on with a numeral. -/
def Stops (rest : List Char) : Prop :=
  ∀ c ∈ rest.head?, digit? c = none ∧ c ≠ '.' ∧ c ≠ 'e' ∧ c ≠ 'E'

theorem stops_nil : Stops [] := nofun

theorem stops_cons {c : Char} (h : digit? c = none ∧ c ≠ '.' ∧ c ≠ 'e' ∧ c ≠ 'E') (rest : List Char) :
    Stops (c :: rest) := by
  rintro _ ⟨⟩
  exact h

theorem digit?_digitChar {d : Nat} (h : d < 10) : digit? (Nat.digitChar d) = some d := by
  have hall : ∀ d < 10, digit? (Nat.digitChar d) = some d := by decide
  exact hall d h

theorem digits_append {cs rest : List Char} {seen : List Nat}
    (h : ∀ c ∈ cs, (digit? c).isSome) (hrest : Stops rest) :
    digits seen (cs ++ rest) = (seen.reverse ++ cs.filterMap digit?, rest) := by
  induction cs generalizing seen with
  | nil =>
    cases rest with
    | nil => simp [digits]
    | cons c rest =>
      obtain ⟨hc, -⟩ := hrest c rfl
      simp [digits, hc]
  | cons c cs ih =>
    obtain ⟨hc, hcs⟩ := List.forall_mem_cons.mp h
    obtain ⟨d, hd⟩ := Option.isSome_iff_exists.mp hc
    simp [digits, hd, ih hcs]

end Json.Reader

namespace Number

open Json.Reader

/-- The decimal digits of a number. -/
def digitsOf (n : Nat) : List Nat := (Nat.toDigits 10 n).filterMap digit?

theorem digitsOf_of_lt {n : Nat} (h : n < 10) : digitsOf n = [n] := by
  simp [digitsOf, Nat.toDigits_of_lt_base h, digit?_digitChar h]

theorem digitsOf_of_le {n : Nat} (h : 10 ≤ n) : digitsOf n = digitsOf (n / 10) ++ [n % 10] := by
  have hlast : n % 10 < 10 := Nat.mod_lt n (by omega)
  simp [digitsOf, Nat.toDigits_of_base_le (by omega : 1 < 10) h, digit?_digitChar hlast]

theorem digit?_of_mem_toDigits {n : Nat} {c : Char} (h : c ∈ Nat.toDigits 10 n) :
    (digit? c).isSome := by
  have hc := Nat.isDigit_of_mem_toDigits (by omega) (Nat.le_refl 10) h
  simp only [Char.isDigit, Bool.and_eq_true, decide_eq_true_eq] at hc
  have hrange : '0' ≤ c ∧ c ≤ '9' := hc
  simp [digit?, hrange]

/-- There is no zero in front. -/
theorem digitsOf_of_pos {n : Nat} (h : 0 < n) : ∃ d ds, digitsOf n = d :: ds ∧ d ≠ 0 := by
  induction n using Nat.strongRecOn with
  | ind n ih =>
    by_cases hlt : n < 10
    · exact ⟨n, [], digitsOf_of_lt hlt, by omega⟩
    · obtain ⟨d, ds, hds, hd⟩ := ih (n / 10) (by omega) (by omega)
      refine ⟨d, ds ++ [n % 10], ?_, hd⟩
      rw [digitsOf_of_le (by omega), hds, List.cons_append]

end Number

namespace Numeral

open Number (digitsOf digitsOf_of_lt digitsOf_of_le)

theorem extend_append {n m d : Nat} {ds : List Nat} (h : extend n ds = (m, 0))
    (hd : m * 10 + d ≤ maxSignificand) : extend n (ds ++ [d]) = (m * 10 + d, 0) := by
  induction ds generalizing n with
  | nil =>
    cases h
    simp [extend, Nat.not_lt.mpr hd]
  | cons d' ds ih =>
    by_cases hfit : maxSignificand < n * 10 + d'
    · simp [extend, hfit] at h
    · simp only [extend, hfit, if_false, List.cons_append] at h ⊢
      exact ih h

theorem extend_digitsOf {n : Nat} (h : n ≤ maxSignificand) : extend 0 (digitsOf n) = (n, 0) := by
  induction n using Nat.strongRecOn with
  | ind n ih =>
    by_cases hlt : n < 10
    · simp [digitsOf_of_lt hlt, extend, Nat.not_lt.mpr h]
    · have hfirst := ih (n / 10) (by omega) (by omega)
      have hn : n / 10 * 10 + n % 10 = n := by omega
      rw [digitsOf_of_le (by omega), extend_append hfirst (by omega), hn]

end Numeral

namespace Json.Reader

open Number (digitsOf digitsOf_of_pos digit?_of_mem_toDigits)

variable {rest : List Char}

theorem someDigits_toDigits (n : Nat) (h : Stops rest) :
    someDigits (Nat.toDigits 10 n ++ rest) = .ok (digitsOf n, rest) := by
  have hall : ∀ c ∈ Nat.toDigits 10 n, (digit? c).isSome := fun c => digit?_of_mem_toDigits
  unfold digitsOf
  cases hcs : Nat.toDigits 10 n with
  | nil => exact absurd hcs Nat.toDigits_ne_nil
  | cons c cs =>
    rw [hcs] at hall
    obtain ⟨hc, hcs⟩ := List.forall_mem_cons.mp hall
    obtain ⟨d, hd⟩ := Option.isSome_iff_exists.mp hc
    simp [someDigits, hd, digits_append hcs h]

theorem wholePart_toDigits (n : Nat) (h : Stops rest) :
    wholePart (Nat.toDigits 10 n ++ rest) = .ok (digitsOf n, rest) := by
  unfold wholePart
  rw [someDigits_toDigits n h]
  by_cases hn : n = 0
  · subst hn
    rfl
  · obtain ⟨d, ds, hds, hd⟩ := digitsOf_of_pos (Nat.pos_of_ne_zero hn)
    rw [hds]
    simp only [bind, Except.bind]
    split
    · rename_i heq
      cases heq
      exact absurd rfl hd
    · rfl

theorem numeral_toDigits (negative : Bool) (n : Nat) (h : Stops rest) :
    numeral negative (Nat.toDigits 10 n ++ rest) = .ok (⟨negative, digitsOf n, none, none⟩, rest) := by
  unfold numeral
  rw [wholePart_toDigits n h]
  cases rest with
  | nil => rfl
  | cons c rest =>
    obtain ⟨-, hpoint, he, hE⟩ := h c rfl
    simp only [bind, Except.bind]
    split
    · rename_i heq
      cases heq
      exact absurd rfl hpoint
    · simp only [pure, Except.pure]
      split
      · rename_i heq
        cases heq
        exact absurd rfl he
      · rename_i heq
        cases heq
        exact absurd rfl hE
      · rfl

theorem number_of_nat (rigour : Rigour) {n : Nat} (hn : n ≤ Numeral.maxSignificand) (h : Stops rest) :
    number rigour false (Nat.toDigits 10 n ++ rest) = .ok (.number (.int n), rest) := by
  have hvalue : (⟨false, digitsOf n, none, none⟩ : Numeral).value? = some (.int n) := by
    simp [Numeral.value?, Numeral.extend_digitsOf hn]
  unfold number
  rw [numeral_toDigits false n h]
  simp only [bind, Except.bind, hvalue]
  rfl

theorem number_of_neg (rigour : Rigour) {n : Nat} (hpos : 0 < n) (hn : n ≤ pow2 63) (h : Stops rest) :
    number rigour true (Nat.toDigits 10 n ++ rest) = .ok (.number (.int (-n)), rest) := by
  have hfits : n ≤ Numeral.maxSignificand := Nat.le_trans hn (by decide)
  have hvalue : (⟨true, digitsOf n, none, none⟩ : Numeral).value? = some (.int (-n)) := by
    have hno : ¬ (n = 0 ∨ pow2 63 < n) := by omega
    simp only [Numeral.value?, Numeral.extend_digitsOf hfits, Nat.lt_irrefl, if_false, if_true, hno]
  unfold number
  rw [numeral_toDigits true n h]
  simp only [bind, Except.bind, hvalue]
  rfl

end Json.Reader

end Rostrum
