import Mathlib.Data.List.Nodup
import Rostrum.Message.Server
import Rostrum.Proofs.Candidate.Written
import Rostrum.Proofs.Json.ReadBack
import Rostrum.Proofs.Message.Grammar

/-!
# Messages that are written and read back

What a message says survives its text, in both directions, whatever its strings are and whatever a
candidate carries in its further members. These keep clear of the three known names and hold no numbers
but integers: a known name would stand twice in the text, and other numbers are written rounded.
-/

namespace Rostrum

open Json (Document Whole maxLevels document documentsOfMembers)

namespace Candidate

/-- A candidate whose further members have other names than the known ones and no numbers but integers. -/
structure Legible (c : Candidate) : Prop extends c.WellFormed where
  extras_whole : ∀ m ∈ c.extras, m.2.Whole

variable {c : Candidate}

theorem Legible.written_whole (h : c.Legible) : c.written.Whole := by
  refine .object fun m hm => ?_
  rcases mem_members hm with ⟨s, hs⟩ | ⟨i, hi, hm⟩ | hm
  · exact hs ▸ .string s
  · have hle := h.lineIndex_le i hi
    have hmax : Json.maxWord32 ≤ Numeral.maxSignificand := by decide
    rw [hm]
    refine .number ?_ ?_ <;> omega
  · exact h.extras_whole m hm

theorem WellFormed.isUnambiguous (h : c.WellFormed) : isUnambiguous c.written.document := by
  have hcount : ∀ name, Document.occurrences name (documentsOfMembers c.members) =
      (c.members.map Prod.fst).count name := by
    intro name
    rw [Json.documentsOfMembers_eq, Document.occurrences, List.countP_map, List.count, List.countP_map]
    rfl
  simp only [written, document, Candidate.isUnambiguous, List.all_eq_true, decide_eq_true_eq, hcount]
  exact fun name _ => List.nodup_iff_count_le_one.mp h.members_nodup name

/-- A candidate is read off what it is written as. -/
theorem WellFormed.ofDocument?_written (h : c.WellFormed) (hdepth : c.written.depth ≤ maxLevels) :
    ofDocument? c.written.document = some c := by
  have hvalue : c.written.document.value? maxLevels = some c.toJson :=
    Json.value?_document_object h.members_ordered hdepth
  have hguard : (guard (Candidate.isUnambiguous c.written.document = true) : Option Unit) = some () :=
    if_pos h.isUnambiguous
  rw [ofDocument?, hguard, hvalue]
  change (ofJson c.toJson).toOption = some c
  rw [h.ofJson_toJson]
  rfl

end Candidate

namespace ServerMessage

/-- The candidate of the message, if it has one, can be read back. -/
def Legible : ServerMessage → Prop
  | .candidate c => c.Legible
  | _ => True

theorem members_whole {m : ServerMessage} (h : m.Legible) : Whole (.object m.members) := by
  refine .object fun v hv => ?_
  cases m with
  | response role verdict answer message =>
    simp only [members, List.cons_append, List.mem_cons, List.mem_append, Option.mem_toList,
      Option.map_eq_some_iff] at hv
    rcases hv with rfl | rfl | ⟨_, -, rfl⟩ | ⟨_, -, rfl⟩ <;> exact .string _
  | candidate c =>
    simp only [members, List.mem_cons, List.not_mem_nil, or_false] at hv
    rcases hv with rfl | rfl
    · exact .string _
    · exact h.written_whole
  | error message =>
    simp only [members, List.mem_cons, List.not_mem_nil, or_false] at hv
    rcases hv with rfl | rfl <;> exact .string _

theorem ofDocument?_members {m : ServerMessage} (h : m.Legible)
    (hdepth : (Json.object m.members).depth ≤ maxLevels) :
    ofDocument? (document (.object m.members)) = some m := by
  cases m with
  | response role verdict answer message =>
    cases role <;> cases verdict <;> cases answer <;> cases message <;> rfl
  | candidate c =>
    have hwritten : c.written.depth ≤ maxLevels := by
      simp only [members, Json.depth, Json.depthOfMembers] at hdepth
      omega
    have hread := h.toWellFormed.ofDocument?_written hwritten
    have hmembers : ofDocument? (document (.object (members (.candidate c)))) =
        (Candidate.ofDocument? c.written.document).bind fun c => some (.candidate c) := rfl
    rw [hmembers, hread]
    rfl
  | error message => rfl

end ServerMessage

namespace ClientMessage

/-- The candidate of the message, if it has one, can be read back. -/
def Legible : ClientMessage → Prop
  | .candidate c => c.Legible
  | _ => True

theorem members_whole {m : ClientMessage} (h : m.Legible) : Whole (.object m.members) := by
  refine .object fun v hv => ?_
  cases m with
  | join role offer =>
    simp only [members, List.mem_cons, List.not_mem_nil, or_false] at hv
    rcases hv with rfl | rfl <;> exact .string _
  | stop =>
    simp only [members, List.mem_cons, List.not_mem_nil, or_false] at hv
    exact hv ▸ .string _
  | candidate c =>
    simp only [members, List.mem_cons, List.not_mem_nil, or_false] at hv
    rcases hv with rfl | rfl
    · exact .string _
    · exact h.written_whole

/-- The members of a message as they are read: those of a candidate are in order by then. -/
def received (m : ClientMessage) : List (String × Json) :=
  (kindName, .string m.kind.name) :: match m with
  | .join _ offer => [(offerName, .string offer)]
  | .stop => []
  | .candidate c => [(candidateName, c.toJson)]

theorem value?_members {m : ClientMessage} (h : m.Legible)
    (hdepth : (Json.object m.members).depth ≤ maxLevels) :
    (document (.object m.members)).value? maxLevels = some (Json.mkObject m.received) := by
  cases m with
  | join role offer => rfl
  | stop => rfl
  | candidate c =>
    obtain ⟨levels, hlevels⟩ : ∃ n, maxLevels = n + 1 := ⟨126, rfl⟩
    have hwritten : c.written.depth ≤ levels := by
      simp only [members, Json.depth, Json.depthOfMembers] at hdepth
      omega
    have hvalue : c.written.document.value? levels = some c.toJson :=
      Json.value?_document_object h.members_ordered hwritten
    rw [hlevels]
    simp [members, received, document, documentsOfMembers, Document.value?, Document.memberValues?, hvalue]

theorem received_denotes {m : ClientMessage} (h : m.Legible) :
    kindOf (Json.Members.ofList m.received) = some (.string m.kind.name) ∧
      Denotes (Json.Members.ofList m.received) m := by
  have hkind : kindName ≠ offerName ∧ kindName ≠ candidateName := by decide
  have hnodup : (m.received.map Prod.fst).Nodup := by
    cases m <;> simp [received, hkind]
  have hget := Json.Members.get?_ofList hnodup
  constructor
  · rw [kindOf, hget]
    rfl
  · cases m with
    | join role offer =>
      apply Denotes.join
      rw [hget]
      rfl
    | stop => exact .stop
    | candidate c =>
      apply Denotes.candidate _ h.denotes_toJson
      rw [hget]
      rfl

theorem decode_text {m : ClientMessage} {limit : Nat} (h : m.Legible)
    (hdepth : (Json.object m.members).depth ≤ maxLevels) (hlimit : m.text.utf8ByteSize ≤ limit) :
    decode limit m.text = .ok m := by
  have hparse : Json.parse m.text = .ok (Json.mkObject m.received) := by
    have hdocument : Document.parse m.text = .ok (document (.object m.members)) :=
      Document.parse_text (members_whole h) hdepth
    unfold Json.parse
    rw [hdocument]
    simp only [bind, Except.bind, value?_members h hdepth]
    rfl
  obtain ⟨hkind, hdenotes⟩ := received_denotes h
  rcases decode_of_decodes (.message hlimit hparse hkind hdenotes) with hread | ⟨_, _, hfault, -⟩
  · exact hread
  · cases hfault

end ClientMessage

/-- Messages survive their text. -/
theorem messages_read_back :
    (∀ m : ServerMessage, m.Legible → (Json.object m.members).depth ≤ maxLevels →
      ServerMessage.ofText? m.text = some m) ∧
    ∀ (m : ClientMessage) (limit : Nat), m.Legible → (Json.object m.members).depth ≤ maxLevels →
      m.text.utf8ByteSize ≤ limit → ClientMessage.decode limit m.text = .ok m := by
  constructor
  · intro m h hdepth
    have hdocument : Document.parse m.text = .ok (document (.object m.members)) :=
      Document.parse_text (ServerMessage.members_whole h) hdepth
    rw [ServerMessage.ofText?, hdocument]
    exact ServerMessage.ofDocument?_members h hdepth
  · intro m limit h hdepth hlimit
    exact ClientMessage.decode_text h hdepth hlimit

/-- A candidate with quotes, control characters and members in members goes out and comes in. -/
theorem nested_candidate_read_back :
    let c : Candidate :=
      { line := "a\"\\\n\x01\u00fc", lineIndex := some 0,
        extras := [("list", .array [.ofInt (-3), .object [("", .null)]]), ("name", .string "\"")] }
    c.Legible ∧
    (ServerMessage.candidate c).text = "\x7b\"kind\":\"iceCandidate\",\"candidate\":\x7b\"candidate\":" ++
      "\"a\\\"\\\\\\n\\u0001\u00fc\",\"sdpMLineIndex\":0,\"list\":[-3,\x7b\"\":null\x7d]," ++
      "\"name\":\"\\\"\"\x7d\x7d" ∧
    ServerMessage.ofText? (ServerMessage.candidate c).text = some (.candidate c) ∧
    ClientMessage.decode (ClientMessage.candidate c).text.utf8ByteSize (ClientMessage.candidate c).text =
      .ok (.candidate c) := by
  intro c
  have hvalues : ∀ m ∈ c.extras, m.2.Ordered ∧ m.2.Whole := by
    intro m hm
    simp only [c, List.mem_cons, List.not_mem_nil, or_false] at hm
    rcases hm with rfl | rfl
    · constructor
      · refine .array fun v hv => ?_
        simp only [List.mem_cons, List.not_mem_nil, or_false] at hv
        rcases hv with rfl | rfl
        · exact .number _
        · exact .object (by decide) fun m hm => List.mem_singleton.mp hm ▸ .null
      · refine .array fun v hv => ?_
        simp only [List.mem_cons, List.not_mem_nil, or_false] at hv
        rcases hv with rfl | rfl
        · exact .number (by decide) (by decide)
        · exact .object fun m hm => List.mem_singleton.mp hm ▸ .null
    · exact ⟨.string _, .string _⟩
  have hc : c.Legible := by
    refine ⟨⟨by decide, fun m hm => (hvalues m hm).1, by decide, ?_⟩, fun m hm => (hvalues m hm).2⟩
    rintro _ ⟨⟩
    decide
  refine ⟨hc, ?_, ?_, ?_⟩
  · decide
  · exact messages_read_back.1 (.candidate c) hc (by decide)
  · exact messages_read_back.2 (.candidate c) _ hc (by decide) (Nat.le_refl _)

end Rostrum
