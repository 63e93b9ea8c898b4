import Mathlib.Order.Basic
import Rostrum.Proofs.Json.Extensional
import Rostrum.Proofs.Json.Numerals
import Rostrum.Proofs.Json.Strings

/-!
# Values that are written and read back

A value whose numbers are integers is written as a text that no reader can take for anything else: it is
read as the document of the value, with whatever follows left over, if the reader goes deep enough. And
a value whose names stand in order is the value of its document.
-/

namespace Rostrum.Json

/-- What holds of a value if it holds of its parts holds of every value. -/
theorem induction_on_parts {P : Json → Prop} (null : P .null) (bool : ∀ b, P (.bool b))
    (number : ∀ n, P (.number n)) (string : ∀ s, P (.string s))
    (array : ∀ xs, (∀ x ∈ xs, P x) → P (.array xs))
    (object : ∀ ms : Members, (∀ m ∈ ms, P m.2) → P (.object ms)) (j : Json) : P j := by
  match j with
  | .null => exact null
  | .bool b => exact bool b
  | .number n => exact number n
  | .string s => exact string s
  | .array xs =>
    apply array
    intro x hx
    exact induction_on_parts null bool number string array object x
  | .object ms =>
    apply object
    intro m hm
    exact induction_on_parts null bool number string array object m.2
termination_by sizeOf j
decreasing_by
  · have hlt := List.sizeOf_lt_of_mem hx
    simp only [Json.array.sizeOf_spec]
    omega
  · have hlt := List.sizeOf_lt_of_mem hm
    obtain ⟨name, value⟩ := m
    simp only [Json.object.sizeOf_spec, Prod.mk.sizeOf_spec] at hlt ⊢
    omega

/-- All numbers of the value are integers of 64 bits, with or without a sign. -/
inductive Whole : Json → Prop where
  | null : Whole .null
  | bool (b : Bool) : Whole (.bool b)
  | number {n : Int} : -(pow2 63 : Int) ≤ n → n ≤ Numeral.maxSignificand → Whole (.number (.int n))
  | string (s : String) : Whole (.string s)
  | array {items : List Json} : (∀ v ∈ items, Whole v) → Whole (.array items)
  | object {ms : Members} : (∀ m ∈ ms, Whole m.2) → Whole (.object ms)

mutual

/-- How deep the containers of a value nest. -/
def depth : Json → Nat
  | .array items => depthOfItems items + 1
  | .object ms => depthOfMembers ms + 1
  | _ => 0

def depthOfItems : List Json → Nat
  | [] => 0
  | v :: rest => max (depth v) (depthOfItems rest)

def depthOfMembers : List (String × Json) → Nat
  | [] => 0
  | (_, v) :: rest => max (depth v) (depthOfMembers rest)

end

mutual

/-- The document that a value is written as. -/
def document : Json → Document
  | .null => .null
  | .bool b => .bool b
  | .number n => .number n
  | .string s => .string s
  | .array items => .array (documentsOfItems items)
  | .object ms => .object (documentsOfMembers ms)

def documentsOfItems : List Json → List Document
  | [] => []
  | v :: rest => document v :: documentsOfItems rest

def documentsOfMembers : List (String × Json) → List (String × Document)
  | [] => []
  | (name, v) :: rest => (name, document v) :: documentsOfMembers rest

end

theorem depth_le_of_mem {items : List Json} {v : Json} (h : v ∈ items) : v.depth ≤ depthOfItems items := by
  induction items with
  | nil => cases h
  | cons x rest ih =>
    rw [depthOfItems]
    rcases List.mem_cons.mp h with rfl | h
    · exact Nat.le_max_left _ _
    · exact Nat.le_trans (ih h) (Nat.le_max_right _ _)

theorem depth_le_of_mem_members {ms : List (String × Json)} {m : String × Json} (h : m ∈ ms) :
    m.2.depth ≤ depthOfMembers ms := by
  induction ms with
  | nil => cases h
  | cons x rest ih =>
    obtain ⟨name, v⟩ := x
    rw [depthOfMembers]
    rcases List.mem_cons.mp h with rfl | h
    · exact Nat.le_max_left _ _
    · exact Nat.le_trans (ih h) (Nat.le_max_right _ _)

theorem documentsOfItems_eq (items : List Json) : documentsOfItems items = items.map document := by
  induction items with
  | nil => rfl
  | cons v rest ih => rw [documentsOfItems, ih, List.map_cons]

theorem documentsOfMembers_eq (ms : List (String × Json)) :
    documentsOfMembers ms = ms.map fun m => (m.1, m.2.document) := by
  induction ms with
  | nil => rfl
  | cons m rest ih =>
    obtain ⟨name, v⟩ := m
    rw [documentsOfMembers, ih, List.map_cons]

/-! ## What stands between brackets -/

namespace Writer

/-- Pieces of text with commas between them. -/
def joined : List (List Char) → List Char
  | [] => []
  | [p] => p
  | p :: q :: ps => p ++ ',' :: joined (q :: ps)

theorem joined_cons (p q : List Char) (ps : List (List Char)) :
    joined (p :: q :: ps) = p ++ ',' :: joined (q :: ps) := rfl

def member (m : String × Json) : List Char := string m.1 ++ ':' :: value m.2

theorem items_eq_joined (items : List Json) : Writer.items items = joined (items.map value) := by
  induction items with
  | nil => rfl
  | cons v rest ih =>
    cases rest with
    | nil => rfl
    | cons v' rest =>
      rw [Writer.items, ih]
      rfl

theorem members_eq_joined (ms : List (String × Json)) : members ms = joined (ms.map member) := by
  induction ms with
  | nil => rfl
  | cons m rest ih =>
    obtain ⟨name, v⟩ := m
    cases rest with
    | nil => rfl
    | cons m' rest =>
      rw [members, ih]
      rfl

theorem length_le_joined {p : List Char} {ps : List (List Char)} (h : p ∈ ps) :
    p.length ≤ (joined ps).length := by
  induction ps with
  | nil => cases h
  | cons q ps ih =>
    cases ps with
    | nil =>
      obtain rfl := List.mem_singleton.mp h
      exact Nat.le_refl _
    | cons q' ps =>
      rw [joined_cons, List.length_append, List.length_cons]
      rcases List.mem_cons.mp h with rfl | h
      · omega
      · have hle := ih h
        omega

theorem count_le_joined (ps : List (List Char)) : ps.length ≤ (joined ps).length + 1 := by
  induction ps with
  | nil => exact Nat.zero_le _
  | cons p ps ih =>
    cases ps with
    | nil => exact Nat.le_add_left _ _
    | cons q ps =>
      simp only [joined_cons, List.length_append, List.length_cons] at ih ⊢
      omega

end Writer

namespace Reader

open Writer (joined)

section Containers
variable {α β : Type} {item : Reader α} {close : Char} {rest : List Char}

/-- A reader takes a piece of text off whatever does not go on with a numeral. -/
structure Takes (item : Reader α) (close : Char) (piece : List Char) (x : α) : Prop where
  head : ∃ c cs, piece = c :: cs ∧ isBlank c = false ∧ c ≠ close
  takes : ∀ rest, Stops rest → item (piece ++ rest) = .ok (x, rest)

/-- A bracket that closes a container. -/
structure Closes (close : Char) : Prop where
  not_blank : isBlank close = false
  not_comma : close ≠ ','
  stops : ∀ rest, Stops (close :: rest)

theorem stops_comma (rest : List Char) : Stops (',' :: rest) := stops_cons (by decide) rest

theorem closes_array : Closes ']' := ⟨by decide, by decide, stops_cons (by decide)⟩

theorem closes_object : Closes '}' := ⟨by decide, by decide, stops_cons (by decide)⟩

theorem skipBlanks_cons {c : Char} (h : isBlank c = false) (text : List Char) :
    skipBlanks (c :: text) = c :: text := by
  simp [skipBlanks, h]

theorem more_close (h : Closes close) : more close (close :: rest) = .ok (false, rest) := by
  simp [more, skipBlanks_cons h.not_blank]

theorem more_comma (h : Closes close) {c : Char} (hc : isBlank c = false) (hne : c ≠ close) :
    more close (',' :: c :: rest) = .ok (true, c :: rest) := by
  have hcomma : skipBlanks (',' :: c :: rest) = ',' :: c :: rest := skipBlanks_cons (by decide) _
  simp [more, hcomma, skipBlanks_cons hc, Ne.symm h.not_comma, hne]

theorem joined_head (c : Char) (cs : List Char) (ps : List (List Char)) :
    ∃ more, joined ((c :: cs) :: ps) = c :: more := by
  cases ps with
  | nil => exact ⟨cs, rfl⟩
  | cons p ps => exact ⟨cs ++ ',' :: joined (p :: ps), rfl⟩

variable {write : β → List Char} {doc : β → α}

theorem items_joined (hclose : Closes close) {x : β} {xs : List β}
    (h : ∀ y ∈ x :: xs, Takes item close (write y) (doc y)) {fuel : Nat} (hfuel : xs.length < fuel)
    (seen : List α) :
    items item close fuel seen (joined ((x :: xs).map write) ++ close :: rest) =
      .ok (seen.reverse ++ (x :: xs).map doc, rest) := by
  induction xs generalizing x fuel seen with
  | nil =>
    obtain ⟨fuel, rfl⟩ : ∃ n, fuel = n + 1 := ⟨fuel - 1, by omega⟩
    have hx := (h x List.mem_cons_self).takes _ (hclose.stops rest)
    simp [items, joined, hx, more_close hclose, bind, Except.bind, pure, Except.pure]
  | cons y ys ih =>
    obtain ⟨fuel, rfl⟩ : ∃ n, fuel = n + 1 := ⟨fuel - 1, by omega⟩
    rw [List.length_cons] at hfuel
    have hfuel' : ys.length < fuel := by omega
    have hrest := ih (fun z hz => h z (List.mem_cons_of_mem _ hz)) hfuel' (doc x :: seen)
    obtain ⟨c, cs, hy, hblank, hne⟩ := (h y (by simp)).head
    obtain ⟨tail, htail⟩ := joined_head c cs (ys.map write)
    have hjoined : joined ((y :: ys).map write) = c :: tail := by
      rw [List.map_cons, hy, htail]
    rw [hjoined, List.cons_append] at hrest
    have hx := (h x List.mem_cons_self).takes _ (stops_comma (c :: (tail ++ close :: rest)))
    have htext : joined ((x :: y :: ys).map write) ++ close :: rest =
        write x ++ ',' :: c :: (tail ++ close :: rest) := by
      rw [List.map_cons, List.map_cons, Writer.joined_cons, ← List.map_cons, hjoined]
      simp
    rw [htext, items]
    simp only [hx, more_comma hclose hblank hne, bind, Except.bind, if_true, hrest]
    simp

theorem container_joined (hclose : Closes close) {xs : List β}
    (h : ∀ y ∈ xs, Takes item close (write y) (doc y)) {size : Nat} (hsize : xs.length ≤ size) :
    container item close size (joined (xs.map write) ++ close :: rest) = .ok (xs.map doc, rest) := by
  cases xs with
  | nil => simp [container, joined, skipBlanks_cons hclose.not_blank]
  | cons x xs =>
    obtain ⟨c, cs, hx, hblank, hne⟩ := (h x List.mem_cons_self).head
    obtain ⟨tail, htail⟩ := joined_head c cs (xs.map write)
    have htext : joined ((x :: xs).map write) ++ close :: rest = c :: (tail ++ close :: rest) := by
      rw [List.map_cons, hx, htail, List.cons_append]
    calc container item close size (joined ((x :: xs).map write) ++ close :: rest)
        = items item close size [] (joined ((x :: xs).map write) ++ close :: rest) := by
          simp only [htext, container, skipBlanks_cons hblank, hne, if_false]
      _ = .ok ((x :: xs).map doc, rest) := items_joined hclose h hsize []

end Containers

/-! ## Documents -/

section Documents
variable {rigour : Rigour} {size levels : Nat} {rest : List Char}

theorem ne_of_digit {c d : Char} (h : (digit? c).isSome) (hd : digit? d = none) : c ≠ d := by
  rintro rfl
  rw [hd] at h
  cases h

theorem isBlank_of_digit {c : Char} (h : (digit? c).isSome) : isBlank c = false := by
  have hspace : c ≠ ' ' := ne_of_digit h (by decide)
  have hnewline : c ≠ '\n' := ne_of_digit h (by decide)
  have htab : c ≠ '\t' := ne_of_digit h (by decide)
  have hreturn : c ≠ '\r' := ne_of_digit h (by decide)
  simp [isBlank, hspace, hnewline, htab, hreturn]

theorem document_digit {c : Char} (h : (digit? c).isSome) (text : List Char) :
    document rigour size levels (c :: text) = number rigour false (c :: text) := by
  rw [document.eq_def]
  simp only [skipBlanks_cons (isBlank_of_digit h)]
  split
  case h_9 heq =>
    cases heq
    exact if_pos h
  case h_1 heq => cases heq
  -- every other first letter is no digit
  all_goals
    rename_i heq
    exact absurd (List.cons.inj heq).1 (ne_of_digit h (by decide))

theorem document_minus (text : List Char) :
    document rigour size levels ('-' :: text) = number rigour true text := by
  rw [document.eq_def]
  rfl

theorem document_quote (text : List Char) : document rigour size levels ('"' :: text) = (do
    let (s, rest) ← string rigour size text
    return (match s with | some s => .string s | none => .faulty, rest)) := by
  rw [document.eq_def]
  rfl

theorem document_bracket (text : List Char) : document rigour size (levels + 1) ('[' :: text) = (do
    let (ds, rest) ← container (document rigour size levels) ']' size text
    return (.array ds, rest)) := by
  rw [document.eq_def]
  rfl

theorem document_brace (text : List Char) : document rigour size (levels + 1) ('\x7b' :: text) = (do
    let (ms, rest) ← container (member rigour size (document rigour size levels)) '\x7d' size text
    return (objectOf ms, rest)) := by
  rw [document.eq_def]
  rfl

theorem string_append (s : String) (rest : List Char) :
    Writer.string s ++ rest = '"' :: (s.toList.flatMap Writer.escape ++ '"' :: rest) := by
  simp [Writer.string]

theorem length_le_string (s : String) : s.length + 2 ≤ (Writer.string s).length := by
  have hchar : ∀ c : Char, 1 ≤ (Writer.escape c).length := by
    intro c
    unfold Writer.escape
    split_ifs <;> simp
  have hle : ∀ cs : List Char, cs.length ≤ (cs.flatMap Writer.escape).length := by
    intro cs
    induction cs with
    | nil => exact Nat.le_refl _
    | cons c cs ih =>
      have h := hchar c
      rw [List.flatMap_cons, List.length_append, List.length_cons]
      omega
  have h := hle s.toList
  simp only [Writer.string, List.length_cons, List.length_append, List.length_nil]
  rw [← String.length_toList]
  omega

theorem document_string {s : String} (h : s.length < size) :
    document rigour size levels (Writer.string s ++ rest) = .ok (.string s, rest) := by
  rw [string_append, document_quote, string_written s h]
  rfl

theorem toList_ofNat (n : Nat) : (toString (Int.ofNat n)).toList = Nat.toDigits 10 n := by
  rw [Int.toString_eq_repr, Int.repr]
  simp

theorem toList_negSucc (n : Nat) :
    (toString (Int.negSucc n)).toList = '-' :: Nat.toDigits 10 (n + 1) := by
  rw [Int.toString_eq_repr, Int.repr]
  simp

theorem toDigits_head (n : Nat) : ∃ c cs, Nat.toDigits 10 n = c :: cs ∧ (digit? c).isSome := by
  cases hdigits : Nat.toDigits 10 n with
  | nil => exact absurd hdigits Nat.toDigits_ne_nil
  | cons c cs => exact ⟨c, cs, rfl, Number.digit?_of_mem_toDigits (hdigits ▸ List.mem_cons_self)⟩

theorem document_int {n : Int} (hmin : -(pow2 63 : Int) ≤ n) (hmax : n ≤ Numeral.maxSignificand)
    (hrest : Stops rest) :
    document rigour size levels ((toString n).toList ++ rest) = .ok (.number (.int n), rest) := by
  cases n with
  | ofNat n =>
    have hread := number_of_nat rigour (Int.ofNat_le.mp hmax) hrest
    obtain ⟨c, cs, hdigits, hc⟩ := toDigits_head n
    rw [hdigits] at hread
    rw [toList_ofNat, hdigits, List.cons_append, document_digit hc, ← List.cons_append, hread]
    rfl
  | negSucc n =>
    have hread := number_of_neg rigour (Nat.succ_pos n) (by omega : n + 1 ≤ pow2 63) hrest
    rw [toList_negSucc, List.cons_append, document_minus, hread]
    rfl

/-- The first letter of a value tells it from a blank and from the end of a list. -/
theorem value_head {j : Json} (h : Whole j) :
    ∃ c cs, Writer.value j = c :: cs ∧ isBlank c = false ∧ c ≠ ']' := by
  cases h with
  | null => exact ⟨_, _, rfl, by decide, by decide⟩
  | bool b => cases b <;> exact ⟨_, _, rfl, by decide, by decide⟩
  | @number n =>
    cases n with
    | ofNat n =>
      obtain ⟨c, cs, hdigits, hc⟩ := toDigits_head n
      exact ⟨c, cs, (toList_ofNat n).trans hdigits, isBlank_of_digit hc, ne_of_digit hc (by decide)⟩
    | negSucc n => exact ⟨_, _, toList_negSucc n, by decide, by decide⟩
  | string s => exact ⟨_, _, rfl, by decide, by decide⟩
  | array => exact ⟨_, _, rfl, by decide, by decide⟩
  | object => exact ⟨_, _, rfl, by decide, by decide⟩

theorem document_array {xs : List Json} (hsize : xs.length ≤ size)
    (h : ∀ x ∈ xs, Takes (document rigour size levels) ']' (Writer.value x) x.document) :
    document rigour size (levels + 1) (Writer.value (.array xs) ++ rest) =
      .ok (Json.document (.array xs), rest) := by
  have htext : Writer.value (.array xs) ++ rest = '[' :: (joined (xs.map Writer.value) ++ ']' :: rest) := by
    simp [Writer.value, Writer.items_eq_joined]
  rw [htext, document_bracket, container_joined closes_array h hsize, Json.document, documentsOfItems_eq]
  rfl

theorem objectOf_some (ms : List (String × Document)) :
    objectOf (ms.map fun m => (some m.1, m.2)) = .object ms := by
  have hall : (ms.map fun m => (some m.1, m.2)).mapM
      (fun m : Option String × Document => m.1.map fun name => (name, m.2)) = some ms := by
    induction ms with
    | nil => rfl
    | cons m rest ih => simp [ih]
  unfold objectOf
  rw [hall]

/-- A member is taken off by its name and its value. -/
theorem member_takes {m : String × Json} (hname : m.1.length < size)
    (h : ∀ rest, Stops rest →
      document rigour size levels (Writer.value m.2 ++ rest) = .ok (m.2.document, rest)) :
    Takes (member rigour size (document rigour size levels)) '\x7d' (Writer.member m)
      (some m.1, m.2.document) := by
  have htext : ∀ rest, Writer.member m ++ rest =
      '"' :: (m.1.toList.flatMap Writer.escape ++ '"' :: ':' :: (Writer.value m.2 ++ rest)) := by
    intro rest
    simp [Writer.member, Writer.string]
  refine ⟨⟨'"', m.1.toList.flatMap Writer.escape ++ '"' :: ':' :: Writer.value m.2, ?_, by decide, by decide⟩,
    fun rest hrest => ?_⟩
  · simpa using htext []
  · have hcolon : ∀ text, skipBlanks (':' :: text) = ':' :: text := skipBlanks_cons (by decide)
    rw [htext, member.eq_def]
    simp only [string_written m.1 hname, bind, Except.bind, hcolon, h rest hrest]
    rfl

theorem document_object {ms : Members} (hsize : ms.length ≤ size)
    (h : ∀ m ∈ ms, Takes (member rigour size (document rigour size levels)) '\x7d' (Writer.member m)
      (some m.1, m.2.document)) :
    document rigour size (levels + 1) (Writer.value (.object ms) ++ rest) =
      .ok (Json.document (.object ms), rest) := by
  have htext : Writer.value (.object ms) ++ rest =
      '\x7b' :: (joined (ms.map Writer.member) ++ '\x7d' :: rest) := by
    simp [Writer.value, Writer.members_eq_joined]
  rw [htext, document_brace, container_joined closes_object h hsize, Json.document, documentsOfMembers_eq,
    ← objectOf_some, List.map_map]
  rfl

/-- A value is read off the front of every text that begins with it. -/
theorem document_value {j : Json} (h : Whole j) (hdepth : j.depth ≤ levels)
    (hsize : (Writer.value j).length ≤ size) (hrest : Stops rest) :
    document rigour size levels (Writer.value j ++ rest) = .ok (j.document, rest) := by
  induction j using induction_on_parts generalizing levels rest with
  | null =>
    rw [document.eq_def]
    rfl
  | bool b =>
    rw [document.eq_def]
    cases b <;> rfl
  | number n =>
    cases h with
    | number hmin hmax => exact document_int hmin hmax hrest
  | string s =>
    have hle := length_le_string s
    have hlt : s.length < size := by
      rw [Writer.value] at hsize
      omega
    exact document_string hlt
  | array xs ih =>
    cases h with
    | array hxs =>
      rw [depth] at hdepth
      obtain ⟨levels, rfl⟩ : ∃ n, levels = n + 1 := ⟨levels - 1, by omega⟩
      have hlength : (joined (xs.map Writer.value)).length + 2 ≤ size := by
        rw [Writer.value, Writer.items_eq_joined] at hsize
        simp only [List.length_cons, List.length_append, List.length_nil] at hsize
        omega
      have hcount := Writer.count_le_joined (xs.map Writer.value)
      rw [List.length_map] at hcount
      apply document_array (by omega)
      intro x hx
      refine ⟨value_head (hxs x hx), fun rest hrest => ?_⟩
      have hdeep := depth_le_of_mem hx
      have hlong := Writer.length_le_joined (List.mem_map_of_mem (f := Writer.value) hx)
      exact ih x hx (hxs x hx) (by omega) (by omega) hrest
  | object ms ih =>
    cases h with
    | object hms =>
      rw [depth] at hdepth
      obtain ⟨levels, rfl⟩ : ∃ n, levels = n + 1 := ⟨levels - 1, by omega⟩
      have hlength : (joined (ms.map Writer.member)).length + 2 ≤ size := by
        rw [Writer.value, Writer.members_eq_joined] at hsize
        simp only [List.length_cons, List.length_append, List.length_nil] at hsize
        omega
      have hcount := Writer.count_le_joined (ms.map Writer.member)
      rw [List.length_map] at hcount
      apply document_object (by omega)
      intro m hm
      have hdeep := depth_le_of_mem_members hm
      have hlong := Writer.length_le_joined (List.mem_map_of_mem (f := Writer.member) hm)
      have hname := length_le_string m.1
      rw [Writer.member, List.length_append, List.length_cons] at hlong
      apply member_takes (by omega)
      intro rest hrest
      exact ih m hm (hms m hm) (by omega) (by omega) hrest

end Documents

end Reader

/-- A value that is written is read as its document. -/
theorem Document.parse_text {j : Json} (h : Whole j) (hdepth : j.depth ≤ maxLevels) :
    Document.parse j.text = .ok j.document := by
  have hread : Reader.document .strict j.text.length maxLevels (Writer.value j ++ []) =
      .ok (j.document, []) := by
    apply Reader.document_value h hdepth _ Reader.stops_nil
    simp [Json.text]
  have htext : j.text.toList = Writer.value j ++ [] := by simp [Json.text]
  unfold Document.parse Document.ofText
  rw [htext, hread]
  rfl

/-! ## The value of a document -/

theorem values?_documents {levels : Nat} {items : List Json}
    (h : ∀ v ∈ items, v.document.value? levels = some v) :
    Document.values? levels (documentsOfItems items) = some items := by
  induction items with
  | nil => rfl
  | cons v rest ih =>
    obtain ⟨hv, hrest⟩ := List.forall_mem_cons.mp h
    simp [documentsOfItems, Document.values?, hv, ih hrest]

theorem memberValues?_documents {levels : Nat} {ms : List (String × Json)}
    (h : ∀ m ∈ ms, m.2.document.value? levels = some m.2) :
    Document.memberValues? levels (documentsOfMembers ms) = some ms := by
  induction ms with
  | nil => rfl
  | cons m rest ih =>
    obtain ⟨name, v⟩ := m
    obtain ⟨hv, hrest⟩ := List.forall_mem_cons.mp h
    simp [documentsOfMembers, Document.memberValues?, hv, ih hrest]

/-- A value whose names stand in order is the value of its document. -/
theorem value?_document {j : Json} {levels : Nat} (h : j.Ordered) (hdepth : j.depth ≤ levels) :
    j.document.value? levels = some j := by
  induction j using induction_on_parts generalizing levels with
  | null | bool | number | string => rw [document, Document.value?.eq_def]
  | array xs ih =>
    cases h with
    | array hxs =>
      rw [depth] at hdepth
      obtain ⟨levels, rfl⟩ : ∃ n, levels = n + 1 := ⟨levels - 1, by omega⟩
      have hvalues : Document.values? levels (documentsOfItems xs) = some xs := by
        apply values?_documents
        intro v hv
        have hdeep := depth_le_of_mem hv
        exact ih v hv (hxs v hv) (by omega)
      simp [document, Document.value?, hvalues]
  | object ms ih =>
    cases h with
    | object hsorted hms =>
      rw [depth] at hdepth
      obtain ⟨levels, rfl⟩ : ∃ n, levels = n + 1 := ⟨levels - 1, by omega⟩
      have hvalues : Document.memberValues? levels (documentsOfMembers ms) = some ms := by
        apply memberValues?_documents
        intro m hm
        have hdeep := depth_le_of_mem_members hm
        exact ih m hm (hms m hm) (by omega)
      simp [document, Document.value?, hvalues, mkObject, Members.ofList_eq_self hsorted]

/-- Of members that were written in any order, the value has them all, in order. -/
theorem value?_document_object {levels : Nat} {ms : Members} (h : ∀ m ∈ ms, m.2.Ordered)
    (hdepth : depth (.object ms) ≤ levels) :
    (document (.object ms)).value? levels = some (mkObject ms) := by
  rw [depth] at hdepth
  obtain ⟨levels, rfl⟩ : ∃ n, levels = n + 1 := ⟨levels - 1, by omega⟩
  have hvalues : Document.memberValues? levels (documentsOfMembers ms) = some ms := by
    apply memberValues?_documents
    intro m hm
    have hdeep := depth_le_of_mem_members hm
    exact value?_document (h m hm) (by omega)
  simp [document, Document.value?, hvalues]

end Rostrum.Json
