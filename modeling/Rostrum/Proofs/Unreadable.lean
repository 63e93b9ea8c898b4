import Rostrum.Proofs.Message.Grammar
import Rostrum.Proofs.Venue

/-!
# Texts that cannot be read

What a client is told about such a text repeats a part of it, and that part has to end between two
characters. Going back byte by byte from the limit finds the place, never runs below the first byte, and
what stands before the place is a text again. So the answer can be given for every text, and the answer
is all that such a text leads to.
-/

namespace Rostrum

/-! ## The part of a text that fits -/

/-- The longest front of a text that fits into a number of bytes. -/
structure LongestFront (limit : Nat) (text part : String) : Prop where
  front : part.toList <+: text.toList
  fits : part.utf8ByteSize ≤ limit
  longest : ∀ other : String, other.toList <+: text.toList → other.utf8ByteSize ≤ limit →
    other.toList <+: part.toList

section Characters
variable (n : Nat) (cs : List Char)

theorem takeBytes_prefix : takeBytes n cs <+: cs := by
  induction cs generalizing n with
  | nil => exact List.prefix_rfl
  | cons c cs ih =>
    rw [takeBytes]
    split
    · exact (List.prefix_cons_inj c).mpr (ih _)
    · exact List.nil_prefix

theorem utf8Len_takeBytes_le : String.utf8Len (takeBytes n cs) ≤ n := by
  induction cs generalizing n with
  | nil => exact Nat.zero_le n
  | cons c cs ih =>
    rw [takeBytes]
    split
    · have hrest := ih (n - c.utf8Size)
      rw [String.utf8Len_cons]
      omega
    · exact Nat.zero_le n

theorem prefix_takeBytes {front : List Char} (hfront : front <+: cs)
    (hfits : String.utf8Len front ≤ n) : front <+: takeBytes n cs := by
  induction cs generalizing n front with
  | nil => exact hfront
  | cons c cs ih =>
    cases front with
    | nil => exact List.nil_prefix
    | cons c' front =>
      obtain ⟨rfl, hrest⟩ := List.cons_prefix_cons.mp hfront
      rw [String.utf8Len_cons] at hfits
      have hc : c'.utf8Size ≤ n := by omega
      rw [takeBytes, if_pos hc]
      exact (List.prefix_cons_inj c').mpr (ih _ hrest (by omega))

end Characters

section Fronts
variable {front text : String}

theorem utf8ByteSize_eq (text : String) : text.utf8ByteSize = String.utf8Len text.toList := by
  rw [← String.utf8ByteSize_ofList, String.ofList_toList]

theorem eq_append_of_front (h : front.toList <+: text.toList) :
    ∃ rest : String, text = front ++ rest := by
  obtain ⟨rest, hrest⟩ := h
  refine ⟨.ofList rest, ?_⟩
  apply String.toList_inj.mp
  rw [String.toList_append, String.toList_ofList, hrest]

theorem utf8ByteSize_le_of_front (h : front.toList <+: text.toList) :
    front.utf8ByteSize ≤ text.utf8ByteSize := by
  obtain ⟨rest, rfl⟩ := eq_append_of_front h
  rw [String.utf8ByteSize_append]
  exact Nat.le_add_right _ _

end Fronts

theorem longestFront_takeBytes (limit : Nat) (text : String) :
    LongestFront limit text (.ofList (takeBytes limit text.toList)) := by
  constructor
  · rw [String.toList_ofList]
    exact takeBytes_prefix _ _
  · rw [String.utf8ByteSize_ofList]
    exact utf8Len_takeBytes_le _ _
  · intro other hfront hfits
    rw [String.toList_ofList]
    rw [utf8ByteSize_eq] at hfits
    exact prefix_takeBytes _ _ hfront hfits

namespace LongestFront
variable {limit : Nat} {text part part' : String}

theorem unique (h : LongestFront limit text part) (h' : LongestFront limit text part') :
    part = part' := by
  have hle := h'.longest part h.front h.fits
  have hge := h.longest part' h'.front h'.fits
  exact String.toList_inj.mp (hle.eq_of_length_le hge.length_le)

/-- A text that fits is repeated as a whole. -/
theorem of_fits (h : text.utf8ByteSize ≤ limit) : LongestFront limit text text :=
  ⟨List.prefix_rfl, h, fun _ hfront _ => hfront⟩

end LongestFront

/-! ## The place where a text is cut -/

/-- A character begins at that byte, or the text ends there. -/
def isCut (text : String) (n : Nat) : Bool :=
  if h : (⟨n⟩ : String.Pos.Raw) < text.rawEndPos then (text.getUTF8Byte ⟨n⟩ h).IsUTF8FirstByte
  else n = text.utf8ByteSize

/-- Goes back byte by byte to a place where the text can be cut. There is none before the first byte. -/
def cutBack? (text : String) : Nat → Option Nat
  | 0 => if isCut text 0 then some 0 else none
  | n + 1 => if isCut text (n + 1) then some (n + 1) else cutBack? text n

/-- The front of a text, read off its bytes: it is cut at the last place within the limit, and what
stands before has to be a text. -/
def clip? (limit : Nat) (text : String) : Option String :=
  if text.utf8ByteSize ≤ limit then some text
  else (cutBack? text limit).bind fun n => String.fromUTF8? (text.toByteArray.extract 0 n)

section Cuts
variable {text : String} {n k : Nat}

/-- A text can be cut exactly behind its fronts. -/
theorem isCut_iff : isCut text n ↔
    ∃ front rest : String, text = front ++ rest ∧ front.utf8ByteSize = n := by
  have hvalid : isCut text n ↔ (⟨n⟩ : String.Pos.Raw).IsValid text := by
    rw [String.Pos.Raw.isValid_iff_isUTF8FirstByte]
    unfold isCut
    split
    · rename_i hinside
      have hne : (⟨n⟩ : String.Pos.Raw) ≠ text.rawEndPos := by
        intro heq
        rw [heq] at hinside
        exact absurd hinside (Nat.lt_irrefl _)
      simp [hinside, hne]
    · rename_i hbehind
      simp [hbehind, String.Pos.Raw.ext_iff]
  rw [hvalid, String.Pos.Raw.isValid_iff_exists_append]
  simp [String.Pos.Raw.ext_iff, eq_comm]

theorem isCut_of_front {front : String} (h : front.toList <+: text.toList) :
    isCut text front.utf8ByteSize := by
  obtain ⟨rest, rfl⟩ := eq_append_of_front h
  exact isCut_iff.mpr ⟨front, rest, rfl, rfl⟩

/-- The place that is found is the last one up to where the search begins. -/
theorem cutBack?_eq (hcut : isCut text k) (hle : k ≤ n)
    (hlast : ∀ j, isCut text j → j ≤ n → j ≤ k) : cutBack? text n = some k := by
  induction n with
  | zero =>
    obtain rfl := Nat.le_zero.mp hle
    rw [cutBack?, if_pos hcut]
  | succ n ih =>
    rw [cutBack?]
    split
    · rename_i hhere
      have hk := hlast (n + 1) hhere (Nat.le_refl _)
      rw [Nat.le_antisymm hk hle]
    · rename_i hnot
      have hne : k ≠ n + 1 := by
        rintro rfl
        exact hnot hcut
      exact ih (by omega) fun j hj hjn => hlast j hj (by omega)

/-- What stands before the end of a front is that front. -/
theorem fromUTF8?_extract (front rest : String) :
    String.fromUTF8? ((front ++ rest).toByteArray.extract 0 front.utf8ByteSize) = some front := by
  have hbytes : (front ++ rest).toByteArray.extract 0 front.utf8ByteSize = front.toByteArray := by
    rw [String.toByteArray_append]
    exact ByteArray.extract_append_eq_left rfl
  rw [hbytes, String.fromUTF8?, dif_pos front.isValidUTF8]
  rfl

end Cuts

/-- Cutting ends without a fault for every text, and what it leaves is the longest front that fits. -/
theorem clip?_eq_some_iff (limit : Nat) (text part : String) :
    clip? limit text = some part ↔ LongestFront limit text part := by
  have hclip : ∀ {part}, LongestFront limit text part → clip? limit text = some part := by
    intro part h
    unfold clip?
    split
    · rename_i hfits
      rw [h.unique (.of_fits hfits)]
    · have hplace : cutBack? text limit = some part.utf8ByteSize := by
        apply cutBack?_eq (isCut_of_front h.front) h.fits
        intro j hj hjn
        obtain ⟨other, rest, rfl, rfl⟩ := isCut_iff.mp hj
        have hother : other.toList <+: (other ++ rest).toList := by
          rw [String.toList_append]
          exact List.prefix_append _ _
        exact utf8ByteSize_le_of_front (h.longest other hother hjn)
      obtain ⟨rest, rfl⟩ := eq_append_of_front h.front
      rw [hplace]
      exact fromUTF8?_extract part rest
  constructor
  · intro h
    have hsome := hclip (longestFront_takeBytes limit text)
    obtain rfl := Option.some.inj (h.symm.trans hsome)
    exact longestFront_takeBytes limit text
  · exact hclip

/-! ## All that such a text leads to -/

theorem Outbound.send_of_room {o : Outbound} {s : SessionId} {q : QueueId} {waiting : List ServerMessage}
    (hq : o.clients.get? s = some q) (hbox : o.boxes.get? q = some ⟨waiting, true⟩)
    (hroom : waiting.length < o.capacity) (m : ServerMessage) :
    o.send s m = (true, { o with boxes := o.boxes.put q ⟨waiting ++ [m], true⟩ }) := by
  simp [send, hq, hbox, hroom]

/-- In every state that the server can reach, a text that cannot be read leads to one message to the
session that sent it, and to nothing else. The part of it that is repeated can be found in every text. -/
theorem unreadable_answered_once (size : Nat) (ops : List Venue.Op) {h : Hub} {s : SessionId}
    {text : String} {fault : DecodeFault}
    (hshows : ((Venue.opened size).run h.settings.maxMessage ops).Shows h)
    (hread : ClientMessage.decode h.settings.maxMessage text = .error fault) :
    (∀ other : String, (clip? maxEcho other).isSome) ∧
    ∃ part : String, clip? maxEcho text = some part ∧ LongestFront maxEcho text part ∧
      (text.utf8ByteSize ≤ maxEcho → part = text) ∧
      let answer := ServerMessage.error ("Invalid message " ++ part)
      let sent := (h.outbound.send s answer).2
      h.dispatch s text = (.done .done, none, { h with outbound := sent }) ∧
      (Venue.opened size).run h.settings.maxMessage (ops ++ [.text s text]) =
        { (Venue.opened size).run h.settings.maxMessage ops with outbound := sent } ∧
      (∀ s', s ≠ s' → h.outbound.SameFor s' sent) ∧
      (∀ q, h.outbound.clients.get? s ≠ some q → sent.boxes.get? q = h.outbound.boxes.get? q) ∧
      ∀ q waiting, h.outbound.clients.get? s = some q →
        h.outbound.boxes.get? q = some ⟨waiting, true⟩ → waiting.length < h.outbound.capacity →
        sent.clients = h.outbound.clients ∧ sent.boxes.get? q = some ⟨waiting ++ [answer], true⟩ := by
  have hclip : ∀ other : String,
      clip? maxEcho other = some (.ofList (takeBytes maxEcho other.toList)) := fun other =>
    (clip?_eq_some_iff _ _ _).mpr (longestFront_takeBytes maxEcho other)
  have hlongest := longestFront_takeBytes maxEcho text
  have hsound : h.outbound.Sound := by
    rw [← hshows.outbound]
    exact Venue.sound_run (Outbound.sound_ofSize size) ops
  refine ⟨fun other => ?_, _, hclip text, hlongest, ?_, ?_, ?_, ?_, ?_, ?_⟩
  · rw [hclip]
    rfl
  · intro hfits
    exact hlongest.unique (.of_fits hfits)
  · unfold Hub.dispatch
    rw [Broadcast.dispatch_of_unreadable h.coordinator hread]
    rfl
  · rw [Venue.run_append]
    refine (Venue.perform_of_unreadable _ _ hread).trans ?_
    rw [hshows.outbound]
    rfl
  · intro s' hne
    exact Outbound.sameFor_send hne hsound _
  · intro q hother
    exact Outbound.boxes_send hother _
  · intro q waiting hq hbox hroom
    rw [Outbound.send_of_room hq hbox hroom]
    exact ⟨rfl, Table.get?_put_self _ _ _⟩

/-- The text has one byte too many, and a character of two bytes lies across the end of what is
repeated. -/
theorem unreadable_cut_before_umlaut :
    let text := String.ofList (List.replicate 1023 'a' ++ ['ä', 'b'])
    let h : Hub := {
      settings := { maxMessage := 1025 }
      outbound := ((Outbound.ofSize 64).register ⟨1⟩).2
      places := { limit := 512 } }
    ClientMessage.decode 1025 text = .error (.tooLarge 1026 1025) ∧
      (h.dispatch ⟨1⟩ text).2.2.outbound.queued ⟨0⟩ =
        [.error ("Invalid message " ++ String.ofList (List.replicate 1023 'a'))] := by
  intro text h
  have hsize : text.utf8ByteSize = 1026 := by
    rw [String.utf8ByteSize_ofList]
    decide +kernel
  have hread : ClientMessage.decode 1025 text = .error (.tooLarge 1026 1025) := by
    rw [← hsize]
    exact ClientMessage.decode_of_large (by rw [hsize]; decide)
  have htaken : takeBytes maxEcho (List.replicate 1023 'a' ++ ['ä', 'b']) =
      List.replicate 1023 'a' := by
    decide +kernel
  have hshows : ((Venue.opened 64).run 1025 [.queue (.register ⟨1⟩)]).Shows h := ⟨rfl, rfl⟩
  obtain ⟨_, part, _, hlongest, _, hdispatch, _, _, _, hroom⟩ :=
    unreadable_answered_once 64 [.queue (.register ⟨1⟩)] hshows hread
  have hpart : part = String.ofList (List.replicate 1023 'a') := by
    rw [hlongest.unique (longestFront_takeBytes maxEcho text), String.toList_ofList, htaken]
  refine ⟨hread, ?_⟩
  rw [hdispatch, ← hpart]
  exact Outbound.queued_of_get? (hroom ⟨0⟩ [] rfl rfl (by decide)).2

end Rostrum
