import Rostrum.Proofs.Json.Fields
import Rostrum.Proofs.Json.Strict
import Rostrum.Proofs.Message.Grammar

/-!
# Two ways to read a client's message

`decode` makes a value of the text first, in which names stand in order, and reads the message off that.
`ofText?` goes through the members in the order of the text: it picks out the kind, wherever it stands,
keeps all else until the kind is known, and then picks out what the kind needs; so does the reader of a
candidate. Main statement: on an object in which no name comes twice and whose kind is a string, both read
the same message or none.
-/

namespace Rostrum

namespace Json.Document

variable {levels : Nat} {members : List (String × Document)} {name : String} {α : Type}

theorem member?_filter_ne {other : String} (h : name ≠ other) :
    member? (members.filter fun m => m.1 ≠ other) name = member? members name := by
  induction members with
  | nil => rfl
  | cons m rest ih =>
    obtain ⟨k, d⟩ := m
    by_cases hk : k = other
    · have hne : k ≠ name := fun heq => h (heq.symm.trans hk)
      rw [List.filter_cons_of_neg (by simpa using hk), ih, member?_cons, if_neg hne]
    · rw [List.filter_cons_of_pos (by simpa using hk), member?_cons, member?_cons, ih]

theorem string?_eq_some_iff {d : Document} {v : Json} (h : d.value? levels = some v) (s : String) :
    d.string? = some s ↔ readString v = .ok s := by
  constructor
  · intro hs
    cases d with
    | string s' =>
      obtain rfl := Option.some.inj h
      exact congrArg Except.ok (Option.some.inj hs)
    | _ => cases hs
  · intro hs
    obtain rfl := readString_eq_ok_iff.mp hs
    exact string?_of_value? h

end Json.Document

open Json (Document)
open Json.Document (member? member?_cons)

namespace Candidate

/-- Where no name comes twice, a candidate is read off the document as off its value. -/
theorem ofDocument?_of_distinct {d : Document} {levels : Nat} {v : Json} {c : Candidate}
    (hdistinct : d.Distinct) (hle : levels ≤ Json.maxLevels) (hv : d.value? levels = some v) :
    ofDocument? d = some c ↔ ofJson v = .ok c := by
  have hunambiguous : isUnambiguous d := by
    cases hdistinct with
    | object hnodup =>
      refine List.all_eq_true.mpr fun name _ => decide_eq_true ?_
      have hle := List.nodup_iff_count_le_one.mp hnodup name
      rwa [List.count, List.countP_map] at hle
    | _ => rfl
  have hguard : (guard (isUnambiguous d = true) : Option Unit) = some () := if_pos hunambiguous
  rw [ofDocument?, hguard, Json.Document.value?_mono hle hv]
  change (ofJson v).toOption = some c ↔ _
  cases ofJson v with
  | error fault => exact ⟨nofun, nofun⟩
  | ok c' => exact ⟨fun h => congrArg Except.ok (Option.some.inj h), fun h => congrArg some (Except.ok.inj h)⟩

/-- Members can be read in any order, if the unknown ones are put in order at the end. -/
theorem ofJson_mkObject {values : List (String × Json)} {c : Candidate}
    (hnodup : (values.map Prod.fst).Nodup) : ofJson (Json.mkObject values) = .ok c ↔
      ∃ line c', readMembers (none, { line := "" }) values = .ok (some line, c') ∧
        c = { c' with line := line, extras := Json.Members.ofList c'.extras } := by
  have hsorted := Json.Members.sorted_ofList values
  have hget := Json.Members.get?_ofList hnodup
  have hextras : (Json.Members.ofList values).filter (fun m => m.1 ∉ knownNames) =
      Json.Members.ofList (values.filter fun m => m.1 ∉ knownNames) := by
    refine Json.Members.Sorted.ext (hsorted.filter _) (Json.Members.sorted_ofList _) fun name => ?_
    rw [Json.Members.get?_ofList (hnodup.sublist (List.filter_sublist.map Prod.fst)),
      Json.Members.get?_filter hsorted.nodup, Json.Members.get?_filter hnodup, hget]
  rw [Json.mkObject, ofJson_object]
  simp only [readMembers_eq_ok_iff hsorted.nodup, readMembers_eq_ok_iff hnodup, readsTo_iff, hget,
    hextras, List.nil_append]
  constructor
  · rintro ⟨line, c', ⟨hline, hmid, hindex, hothers, hrest⟩, rfl⟩
    refine ⟨line, { c' with extras := values.filter fun m => m.1 ∉ knownNames },
      ⟨hline, hmid, hindex, rfl, hrest⟩, ?_⟩
    rw [← hothers]
  · rintro ⟨line, c', ⟨hline, hmid, hindex, hothers, hrest⟩, rfl⟩
    refine ⟨line, { c' with extras := Json.Members.ofList c'.extras },
      ⟨hline, hmid, hindex, ?_, hrest⟩, rfl⟩
    rw [hothers]

/-- A candidate is read in one pass over its members, in the order of the text. -/
theorem ofDocument?_in_order {members : List (String × Document)} {values : List (String × Json)}
    {levels : Nat} {c : Candidate} (hdistinct : (Document.object members).Distinct)
    (hlevels : levels < Json.maxLevels) (hvalues : Document.memberValues? levels members = some values) :
    ofDocument? (.object members) = some c ↔
      ∃ line c', readMembers (none, { line := "" }) values = .ok (some line, c') ∧
        c = { c' with line := line, extras := Json.Members.ofList c'.extras } := by
  have hvalue : (Document.object members).value? (levels + 1) = some (Json.mkObject values) := by
    simp [Document.value?, hvalues]
  have hnodup : (values.map Prod.fst).Nodup := by
    rw [Document.names_of_memberValues? hvalues]
    cases hdistinct with
    | object hnodup => exact hnodup
  rw [ofDocument?_of_distinct hdistinct hlevels hvalue, ofJson_mkObject hnodup]

end Candidate

namespace ClientMessage

variable {members : List (String × Document)} {name : String} {α : Type}

/-! ## One pass over the members -/

theorem Seen.takeAll_other {seen : Seen} {k : String} {d : Document} (h : k ≠ kindName) :
    seen.takeAll ((k, d) :: members) =
      Seen.takeAll { seen with others := seen.others ++ [(k, d)] } members := by
  rw [takeAll, take, if_neg h]
  rfl

theorem Seen.takeAll_kind {others : List (String × Document)} {d : Document} :
    Seen.takeAll ⟨none, others⟩ ((kindName, d) :: members) =
      (d.string?.bind MessageKind.ofName?).bind fun k => Seen.takeAll ⟨some k, others⟩ members := by
  rw [takeAll, take, if_pos rfl]
  cases d.string? with
  | none => rfl
  | some s =>
    change ((MessageKind.ofName? s).bind fun k => some (Seen.mk (some k) others)).bind _ = _
    cases hk : MessageKind.ofName? s <;> simp [hk]

theorem Seen.takeAll_others {seen : Seen} (h : kindName ∉ members.map Prod.fst) :
    seen.takeAll members = some { seen with others := seen.others ++ members } := by
  induction members generalizing seen with
  | nil => simp [takeAll]
  | cons m rest ih =>
    simp only [List.map_cons, List.mem_cons, not_or] at h
    rw [takeAll_other (Ne.symm h.1), ih h.2]
    simp

/-- The kind is found wherever it stands, and all else is kept in its order. -/
theorem Seen.takeAll_of_member {others : List (String × Document)} {d : Document}
    (hnodup : (members.map Prod.fst).Nodup) (h : member? members kindName = some d) :
    Seen.takeAll ⟨none, others⟩ members = (d.string?.bind MessageKind.ofName?).map fun k =>
      ⟨some k, others ++ members.filter fun m => m.1 ≠ kindName⟩ := by
  induction members generalizing others with
  | nil => cases h
  | cons m rest ih =>
    obtain ⟨k, d'⟩ := m
    obtain ⟨hk, hrest⟩ := List.nodup_cons.mp hnodup
    rw [member?_cons] at h
    by_cases hkind : k = kindName
    · subst hkind
      rw [if_pos rfl] at h
      obtain rfl := Option.some.inj h
      have hothers : rest.filter (fun m => m.1 ≠ kindName) = rest := by
        refine List.filter_eq_self.mpr fun m hm => decide_eq_true fun heq => hk ?_
        exact List.mem_map.mpr ⟨m, hm, heq⟩
      rw [takeAll_kind, List.filter_cons_of_neg (by simp), hothers]
      cases d'.string?.bind MessageKind.ofName? with
      | none => rfl
      | some k => exact takeAll_others hk
    · rw [if_neg hkind] at h
      rw [takeAll_other hkind, ih hrest h, List.filter_cons_of_pos (by simpa using hkind)]
      simp

theorem only?_cons_self {read : Document → Option α} {d : Document} :
    only? name read none ((name, d) :: members) =
      (read d).bind fun x => only? name read (some x) members :=
  if_pos rfl

theorem only?_cons_of_ne {read : Document → Option α} {found : Option α} {m : String × Document}
    (h : m.1 ≠ name) : only? name read found (m :: members) = only? name read found members :=
  if_neg h

theorem only?_of_notMem {read : Document → Option α} {found : Option α}
    (h : name ∉ members.map Prod.fst) : only? name read found members = found := by
  induction members with
  | nil => rfl
  | cons m rest ih =>
    simp only [List.map_cons, List.mem_cons, not_or] at h
    rw [only?_cons_of_ne (Ne.symm h.1), ih h.2]

theorem only?_of_nodup {read : Document → Option α} (hnodup : (members.map Prod.fst).Nodup) :
    only? name read none members = (member? members name).bind read := by
  induction members with
  | nil => rfl
  | cons m rest ih =>
    obtain ⟨k, d⟩ := m
    obtain ⟨hk, hrest⟩ := List.nodup_cons.mp hnodup
    rw [member?_cons]
    by_cases hname : k = name
    · subst hname
      rw [only?_cons_self, if_pos rfl]
      cases hread : read d with
      | none => simp [hread]
      | some x => simp [hread, only?_of_notMem hk]
    · rw [only?_cons_of_ne hname, if_neg hname]
      exact ih hrest

/-- What is left of an object in which no name comes twice, when its kind is known. -/
theorem ofDocument?_object {text : String} (hnodup : (members.map Prod.fst).Nodup)
    (h : member? members kindName = some (.string text)) :
    ofDocument? (.object members) = (MessageKind.ofName? text).bind
      (ofOthers? (members.filter fun m => m.1 ≠ kindName)) := by
  rw [ofDocument?, Seen.takeAll_of_member hnodup h]
  cases hk : MessageKind.ofName? text <;> simp [Json.Document.string?, hk]

/-! ## The same members, read twice -/

theorem map_eq_ok_iff {β γ ε : Type} {f : β → γ} {r : Except ε β} {o : Option β}
    (h : ∀ x, r = .ok x ↔ o = some x) {y : γ} :
    (do return f (← r)) = Except.ok y ↔ (do return f (← o)) = some y := by
  cases r with
  | ok x =>
    obtain rfl := (h x).mp rfl
    exact ⟨fun hy => congrArg some (Except.ok.inj hy), fun hy => congrArg Except.ok (Option.some.inj hy)⟩
  | error e =>
    cases o with
    | none => exact ⟨nofun, nofun⟩
    | some x => cases (h x).mpr rfl

section Reading
variable {levels : Nat} {ms : Json.Members} (a : Document.Agree levels members (Json.Members.get? · ms))
  {read : Document → Option α} {read' : Json → Except Json.ShapeFault α}
include a

/-- Two readers that agree on a member agree on whether it is there and what it says. -/
theorem required_of_agree
    (hread : ∀ d v, member? members name = some d → d.value? levels = some v → ∀ x,
      read d = some x ↔ read' v = .ok x) (x : α) :
    required name ms read' = .ok x ↔ (member? members name).bind read = some x := by
  rw [required_eq_ok_iff]
  rcases a name with ⟨hm, hget⟩ | ⟨d, v, hm, hv, hget⟩
  · rw [hm]
    constructor
    · rintro ⟨w, hw, _⟩
      cases hget.symm.trans hw
    · exact nofun
  · rw [hm]
    refine Iff.trans ?_ (hread d v hm hv x).symm
    constructor
    · rintro ⟨w, hw, hx⟩
      cases hget.symm.trans hw
      exact hx
    · exact fun hx => ⟨v, hget, hx⟩

theorem ofMembers_of_agree (hnodup : (members.map Prod.fst).Nodup)
    (hdistinct : ∀ m ∈ members, m.2.Distinct) (hle : levels ≤ Json.maxLevels) (k : MessageKind)
    (m : ClientMessage) :
    ofMembers ms k = .ok m ↔ ofOthers? (members.filter fun m => m.1 ≠ kindName) k = some m := by
  have hothers : ((members.filter fun m => m.1 ≠ kindName).map Prod.fst).Nodup :=
    hnodup.sublist (List.filter_sublist.map Prod.fst)
  have honly : ∀ {β : Type} {read : Document → Option β} {name : String}, name ≠ kindName →
      only? name read none (members.filter fun m => m.1 ≠ kindName) = (member? members name).bind read := by
    intro β read name hne
    rw [only?_of_nodup hothers, Json.Document.member?_filter_ne hne]
  have hnames : offerName ≠ kindName ∧ candidateName ≠ kindName := by decide
  cases k with
  | stop =>
    constructor
    · rintro ⟨⟩
      rfl
    · rintro ⟨⟩
      rfl
  | join role =>
    have hread := @required_of_agree members offerName String levels ms a Document.string?
      Json.readString fun d v _ hv s => Document.string?_eq_some_iff hv s
    rw [ofOthers?, honly hnames.1, ofMembers]
    exact map_eq_ok_iff hread
  | candidate =>
    have hread := @required_of_agree members candidateName Candidate levels ms a Candidate.ofDocument?
      Candidate.ofJson fun d v hm hv c => Candidate.ofDocument?_of_distinct
        (hdistinct _ (Document.mem_of_member? hm)) hle hv
    rw [ofOthers?, honly hnames.2, ofMembers]
    exact map_eq_ok_iff hread

end Reading

/-! ## Texts -/

theorem object_of_value? {levels : Nat} {v : Json}
    (h : (Document.object members).value? levels = some v) : ∃ ms, v = .object ms := by
  cases levels with
  | zero => simp [Document.value?] at h
  | succ levels =>
    simp only [Document.value?, Option.bind_eq_bind, Option.bind_eq_some_iff] at h
    obtain ⟨values, _, hv⟩ := h
    exact ⟨_, (Option.some.inj hv).symm⟩

/-- An object in which no name comes twice at any depth and whose kind is a string. -/
def Plain (d : Document) : Prop :=
  d.Distinct ∧ ∃ members name, d = .object members ∧ member? members kindName = some (.string name)

/--
**Both readers of client messages agree** on every text that is a plain object, whatever the order of its
members, whatever else it holds, and within every limit that the text keeps: they read the same message,
or both refuse the text. A text that is no document at all, as one that nests too deep, both refuse.
-/
theorem readers_agree {limit : Nat} {text : String} (hlimit : text.utf8ByteSize ≤ limit)
    (hplain : ∀ d, Document.parse text = .ok d → Plain d) (m : ClientMessage) :
    decode limit text = .ok m ↔ ofText? text = some m := by
  rw [ofText?]
  cases hd : Document.parse text with
  | error fault =>
    have hparse : Json.parse text = .error fault := by
      rw [Json.parse, hd]
      rfl
    rw [decode_of_fault hlimit hparse]
    constructor <;> intro h <;> cases h
  | ok d =>
    obtain ⟨hdistinct, members, name, rfl, hkind⟩ := hplain d hd
    obtain ⟨v, hv⟩ := Document.valued_of_parse hd
    have hparse := Json.parse_eq_ok_iff.mpr ⟨_, hd, hv⟩
    obtain ⟨hnodup, hmembers⟩ : (members.map Prod.fst).Nodup ∧ ∀ m ∈ members, m.2.Distinct := by
      cases hdistinct with
      | object hnodup hmembers => exact ⟨hnodup, hmembers⟩
    obtain ⟨ms, rfl⟩ := object_of_value? hv
    have a : Document.Agree 126 members (Json.Members.get? · ms) := Document.agree_of_value? hnodup hv
    have hkindOf : kindOf ms = some (.string name) := by
      rcases a kindName with ⟨hnone, _⟩ | ⟨d, v, hd, hv, hget⟩
      · cases hkind.symm.trans hnone
      · obtain rfl := Option.some.inj (hkind.symm.trans hd)
        obtain rfl := Option.some.inj hv
        have hget : Json.Members.get? kindName ms = some (.string name) := hget
        rw [kindOf, hget]
        rfl
    rw [decode_of_object hlimit hparse]
    change _ ↔ ofDocument? (.object members) = some m
    rw [ofDocument?_object hnodup hkind]
    cases hk : MessageKind.ofName? name with
    | none =>
      have hunknown : ∀ k : MessageKind, k.name ≠ name := fun k hname => by
        cases hk.symm.trans (MessageKind.ofName?_eq_some_iff.mpr hname)
      rw [ofObject_of_unknown hkindOf hunknown]
      constructor <;> intro h <;> cases h
    | some k =>
      obtain rfl := MessageKind.ofName?_eq_some_iff.mp hk
      rw [ofObject_of_kind hkindOf]
      refine Iff.trans ?_ (ofMembers_of_agree a hnodup hmembers (by decide) k m)
      cases ofMembers ms k with
      | ok m' =>
        exact ⟨fun h => congrArg Except.ok (Except.ok.inj h), fun h => congrArg Except.ok (Except.ok.inj h)⟩
      | error fault => constructor <;> intro h <;> cases h

/-- The kind comes last, after an `id`, and the members of the candidate stand out of order. -/
theorem shuffled_candidate_agreed :
    let j : Json := .object [("candidate", .object [("b", .null), ("sdpMLineIndex", .ofInt 0),
      ("candidate", .string "c"), ("a", .string "x")]), ("id", .string "stop"),
      ("kind", .string "onIceCandidate")]
    let c : Candidate := { line := "c", lineIndex := some 0, extras := [("a", .string "x"), ("b", .null)] }
    (∀ d, Document.parse j.text = .ok d → Plain d) ∧ ofText? j.text = some (.candidate c) ∧
      decode j.text.utf8ByteSize j.text = .ok (.candidate c) := by
  intro j c
  have hwhole : j.Whole := by
    refine .object ?_
    simp only [List.forall_mem_cons, List.not_mem_nil, false_implies, implies_true, and_true]
    refine ⟨.object ?_, .string _, .string _⟩
    simp only [List.forall_mem_cons, List.not_mem_nil, false_implies, implies_true, and_true]
    exact ⟨.null, .number (by decide) (by decide), .string _, .string _⟩
  have hparse : Document.parse j.text = .ok j.document := Document.parse_text hwhole (by decide)
  have hdistinct : j.document.Distinct := by
    refine .object (by decide) ?_
    simp only [Json.documentsOfMembers, List.forall_mem_cons, List.not_mem_nil, false_implies,
      implies_true, and_true]
    refine ⟨.object (by decide) ?_, .string _, .string _⟩
    simp only [Json.documentsOfMembers, List.forall_mem_cons, List.not_mem_nil, false_implies,
      implies_true, and_true]
    exact ⟨.null, .number _, .string _, .string _⟩
  have hplain : ∀ d, Document.parse j.text = .ok d → Plain d := by
    intro d hd
    obtain rfl := Except.ok.inj (hparse.symm.trans hd)
    exact ⟨hdistinct, _, _, rfl, rfl⟩
  have hread : ofText? j.text = some (.candidate c) := by
    rw [ofText?, hparse]
    rfl
  exact ⟨hplain, hread, (readers_agree (Nat.le_refl _) hplain _).mpr hread⟩

end ClientMessage

end Rostrum
