import Mathlib.Tactic.SplitIfs
import Rostrum.Json.Reader
import Rostrum.Json.Writer

/-!
# Strings that are written and read back

Every character is written so that one round of the reader takes it: as it stands, by an escape of one
letter, or by its code. So a string of any characters is read as itself.
-/

namespace Rostrum.Json.Reader

variable {rigour : Rigour} {rest : List Char}

theorem digitValue?_hexDigit {d : Nat} (h : d < 16) : digitValue? 16 (Writer.hexDigit d) = some d := by
  have hall : ∀ d < 16, digitValue? 16 (Writer.hexDigit d) = some d := by decide
  exact hall d h

/-- A control character is given by a code of two digits. -/
theorem codeEscape_of_lt {c : Char} (h : c.toNat < 0x20) :
    codeEscape rigour
      ('0' :: '0' :: Writer.hexDigit (c.toNat / 16) :: Writer.hexDigit (c.toNat % 16) :: rest) =
      .ok (some c, rest) := by
  have hhigh := digitValue?_hexDigit (d := c.toNat / 16) (by omega)
  have hlow := digitValue?_hexDigit (d := c.toNat % 16) (by omega)
  have hzero : digitValue? 16 '0' = some 0 := by decide
  have hcode : ((0 * 16 + 0) * 16 + c.toNat / 16) * 16 + c.toNat % 16 = c.toNat := by omega
  have hnot : (!isHighSurrogate c.toNat && !isLowSurrogate c.toNat) = true := by
    simp only [isHighSurrogate, isLowSurrogate, Bool.and_eq_true, Bool.not_eq_true', Bool.and_eq_false_iff,
      decide_eq_false_iff_not]
    omega
  simp only [codeEscape, hexCode, hzero, hhigh, hlow, hcode, bind, Except.bind, hnot, if_true,
    Char.ofNat_toNat]
  rfl

theorem stringBody_backslash (fuel : Nat) (seen : Option (List Char)) (text : List Char) :
    stringBody rigour (fuel + 1) seen ('\\' :: text) = (do
      let (d, rest) ← escape rigour text
      stringBody rigour fuel (do return (← d) :: (← seen)) rest) := rfl

/-- The escape of a character is taken in one round. -/
theorem stringBody_escape (c : Char) (fuel : Nat) (seen : List Char) :
    stringBody rigour (fuel + 1) (some seen) (Writer.escape c ++ rest) =
      stringBody rigour fuel (some (c :: seen)) rest := by
  unfold Writer.escape
  split_ifs with hquote hslash hb hf hn hr ht hcontrol
  · subst hquote
    rfl
  · subst hslash
    rfl
  · subst hb
    rfl
  · subst hf
    rfl
  · subst hn
    rfl
  · subst hr
    rfl
  · subst ht
    rfl
  · simp only [List.cons_append, List.nil_append, stringBody_backslash, escape, codeEscape_of_lt hcontrol]
    rfl
  · simp only [List.cons_append, List.nil_append, stringBody, hquote, hslash, hcontrol, if_false]
    rfl

theorem stringBody_flatMap {cs : List Char} {fuel : Nat} (h : cs.length < fuel) (seen : List Char) :
    stringBody rigour fuel (some seen) (cs.flatMap Writer.escape ++ '"' :: rest) =
      .ok (some (String.ofList (seen.reverse ++ cs)), rest) := by
  induction cs generalizing fuel seen with
  | nil =>
    obtain ⟨fuel, rfl⟩ : ∃ n, fuel = n + 1 := ⟨fuel - 1, by omega⟩
    simp [stringBody]
  | cons c cs ih =>
    obtain ⟨fuel, rfl⟩ : ∃ n, fuel = n + 1 := ⟨fuel - 1, by omega⟩
    rw [List.length_cons] at h
    rw [List.flatMap_cons, List.append_assoc, stringBody_escape, ih (by omega)]
    simp

/-- What stands after the opening quote of a written string is read as the string. -/
theorem string_written (s : String) {size : Nat} (h : s.length < size) :
    string rigour size (s.toList.flatMap Writer.escape ++ '"' :: rest) = .ok (some s, rest) := by
  unfold string
  rw [stringBody_flatMap h]
  simp

end Rostrum.Json.Reader
