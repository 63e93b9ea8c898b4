import Rostrum.Message.Client
import Rostrum.Proofs.Candidate

/-!
# The grammar of client messages

`Decodes` says what every text is read as: the reasons for which a text is refused, in their order,
and the members each kind of message needs. Main statement: `decode` follows this grammar, looks at
no other member, and takes `id` for `kind` where there is no `kind`.

What is one JSON value, and which one, is left to `Json.parse`.
-/

namespace Rostrum

theorem MessageKind.ofName?_eq_some_iff {name : String} {k : MessageKind} :
    MessageKind.ofName? name = some k ↔ k.name = name := by
  have hall : ∀ k : MessageKind, k ∈ all := by
    rintro (role | _ | _)
    · cases role <;> simp [all]
    · simp [all]
    · simp [all]
  have hinj : ∀ k k' : MessageKind, k.name = k'.name → k = k' := by
    have hdecide : ∀ k ∈ all, ∀ k' ∈ all, k.name = k'.name → k = k' := by decide
    exact fun k k' => hdecide k (hall k) k' (hall k')
  unfold ofName?
  constructor
  · intro h
    simpa using List.find?_some h
  · rintro rfl
    cases h : all.find? fun k' => k'.name = k.name with
    | none => simpa using List.find?_eq_none.mp h k (hall k)
    | some k' =>
      have hname : k'.name = k.name := by simpa using List.find?_some h
      rw [hinj k' k hname]

namespace ClientMessage

/-- The members a message needs. -/
inductive Denotes (members : Json.Members) : ClientMessage → Prop where
  | join {role : Role} {offer : String} : members.get? offerName = some (.string offer) →
      Denotes members (.join role offer)
  | stop : Denotes members .stop
  | candidate {v : Json} {c : Candidate} : members.get? candidateName = some v → c.Denotes v →
      Denotes members (.candidate c)

/-- What a text is read as by a reader that takes texts of at most `limit` bytes. -/
inductive Decodes (limit : Nat) (text : String) : Except DecodeFault ClientMessage → Prop where
  | tooLarge : limit < text.utf8ByteSize →
      Decodes limit text (.error (.tooLarge text.utf8ByteSize limit))
  | notJson {fault : Json.Fault} : text.utf8ByteSize ≤ limit → Json.parse text = .error fault →
      Decodes limit text (.error (.notJson fault))
  | notObject {v : Json} : text.utf8ByteSize ≤ limit → Json.parse text = .ok v →
      (∀ members, v ≠ .object members) → Decodes limit text (.error .notObject)
  | missingKind {members : Json.Members} : text.utf8ByteSize ≤ limit →
      Json.parse text = .ok (.object members) → (∀ name, kindOf members ≠ some (.string name)) →
      Decodes limit text (.error .missingKind)
  | unknownKind {members : Json.Members} {name : String} : text.utf8ByteSize ≤ limit →
      Json.parse text = .ok (.object members) → kindOf members = some (.string name) →
      (∀ k : MessageKind, k.name ≠ name) → Decodes limit text (.error (.unknownKind name))
  | message {members : Json.Members} {m : ClientMessage} : text.utf8ByteSize ≤ limit →
      Json.parse text = .ok (.object members) → kindOf members = some (.string m.kind.name) →
      Denotes members m → Decodes limit text (.ok m)
  /-- What exactly is wrong with the members is left open. -/
  | shape {members : Json.Members} {k : MessageKind} {fault : Json.ShapeFault} :
      text.utf8ByteSize ≤ limit → Json.parse text = .ok (.object members) →
      kindOf members = some (.string k.name) → (∀ m, m.kind = k → ¬ Denotes members m) →
      Decodes limit text (.error (.shape fault))

/-- What the members of an object are read as. -/
def ofObject (members : Json.Members) : Except DecodeFault ClientMessage :=
  match kindOf members with
  | some (.string name) =>
    match MessageKind.ofName? name with
    | some k => (ofMembers members k).mapError .shape
    | none => .error (.unknownKind name)
  | _ => .error .missingKind

variable {limit : Nat} {text : String} {members : Json.Members}

theorem decode_of_large (h : limit < text.utf8ByteSize) :
    decode limit text = .error (.tooLarge text.utf8ByteSize limit) := by
  simp only [decode, h, if_true]
  rfl

section Within
variable (h : text.utf8ByteSize ≤ limit)
include h

theorem decode_of_fault {fault : Json.Fault} (hp : Json.parse text = .error fault) :
    decode limit text = .error (.notJson fault) := by
  simp only [decode, Nat.not_lt_of_le h, if_false, hp]
  rfl

theorem decode_of_value {v : Json} (hp : Json.parse text = .ok v)
    (hv : ∀ members, v ≠ .object members) : decode limit text = .error .notObject := by
  simp only [decode, Nat.not_lt_of_le h, if_false, hp]
  cases v with
  | object members => exact absurd rfl (hv members)
  | _ => rfl

theorem decode_of_object (hp : Json.parse text = .ok (.object members)) :
    decode limit text = ofObject members := by
  simp only [decode, Nat.not_lt_of_le h, if_false, hp]
  rfl

end Within

theorem ofObject_of_kind {k : MessageKind} (h : kindOf members = some (.string k.name)) :
    ofObject members = (ofMembers members k).mapError .shape := by
  have hk : MessageKind.ofName? k.name = some k := MessageKind.ofName?_eq_some_iff.mpr rfl
  simp only [ofObject, h, hk]

theorem ofObject_of_unknown {name : String} (h : kindOf members = some (.string name))
    (hk : ∀ k : MessageKind, k.name ≠ name) : ofObject members = .error (.unknownKind name) := by
  have hnone : MessageKind.ofName? name = none := by
    cases hof : MessageKind.ofName? name with
    | none => rfl
    | some k => exact absurd (MessageKind.ofName?_eq_some_iff.mp hof) (hk k)
  simp only [ofObject, h, hnone]

theorem ofObject_of_missing (h : ∀ name, kindOf members ≠ some (.string name)) :
    ofObject members = .error .missingKind := by
  unfold ofObject
  split
  · rename_i name hname
    exact absurd hname (h name)
  · rfl

theorem required_eq_ok_iff {α : Type} {name : String} {read : Json → Except Json.ShapeFault α} {x : α} :
    required name members read = .ok x ↔ ∃ v, members.get? name = some v ∧ read v = .ok x := by
  unfold required
  cases members.get? name with
  | none => exact ⟨nofun, nofun⟩
  | some v =>
    constructor
    · exact fun h => ⟨v, rfl, h⟩
    · rintro ⟨_, ⟨⟩, h⟩
      exact h

/-- The members of a message are read exactly when they are all there. -/
theorem ofMembers_eq_ok_iff (hvalues : ∀ m ∈ members, m.2.Ordered) {k : MessageKind}
    {m : ClientMessage} : ofMembers members k = .ok m ↔ m.kind = k ∧ Denotes members m := by
  cases k with
  | join role =>
    have hread : ∀ offer, required offerName members Json.readString = .ok offer ↔
        members.get? offerName = some (.string offer) := by
      intro offer
      rw [required_eq_ok_iff]
      constructor
      · rintro ⟨v, hv, hs⟩
        rw [hv, Json.readString_eq_ok_iff.mp hs]
      · exact fun hv => ⟨_, hv, rfl⟩
    constructor
    · intro h
      cases hr : required offerName members Json.readString with
      | error fault =>
        rw [ofMembers, hr] at h
        cases h
      | ok offer =>
        rw [ofMembers, hr] at h
        cases h
        exact ⟨rfl, .join ((hread offer).mp hr)⟩
    · rintro ⟨hk, hm⟩
      cases hm with
      | join hv =>
        cases hk
        rw [ofMembers, (hread _).mpr hv]
        rfl
      | stop | candidate => cases hk
  | stop =>
    constructor
    · rintro ⟨⟩
      exact ⟨rfl, .stop⟩
    · rintro ⟨hk, hm⟩
      cases hm with
      | stop => rfl
      | join | candidate => cases hk
  | candidate =>
    constructor
    · intro h
      cases hr : required candidateName members Candidate.ofJson with
      | error fault =>
        rw [ofMembers, hr] at h
        cases h
      | ok c =>
        rw [ofMembers, hr] at h
        cases h
        obtain ⟨v, hv, hc⟩ := required_eq_ok_iff.mp hr
        have hordered := hvalues _ (Json.Members.mem_of_get? hv)
        exact ⟨rfl, .candidate hv ((Candidate.ofJson_eq_ok_iff hordered).mp hc)⟩
    · rintro ⟨hk, hm⟩
      cases hm with
      | candidate hv hc =>
        have hordered := hvalues _ (Json.Members.mem_of_get? hv)
        have hr := required_eq_ok_iff.mpr ⟨_, hv, (Candidate.ofJson_eq_ok_iff hordered).mpr hc⟩
        rw [ofMembers, hr]
        rfl
      | join | stop => cases hk

theorem decode_decodes (limit : Nat) (text : String) : Decodes limit text (decode limit text) := by
  rcases Nat.lt_or_ge limit text.utf8ByteSize with h | h
  · rw [decode_of_large h]
    exact .tooLarge h
  cases hp : Json.parse text with
  | error fault =>
    rw [decode_of_fault h hp]
    exact .notJson h hp
  | ok v =>
    by_cases hobject : ∃ members, v = .object members
    · obtain ⟨members, rfl⟩ := hobject
      obtain ⟨_, hvalues⟩ := Json.ordered_object (Json.ordered_of_parse hp)
      rw [decode_of_object h hp]
      by_cases hname : ∃ name, kindOf members = some (.string name)
      · obtain ⟨name, hname⟩ := hname
        by_cases hk : ∃ k : MessageKind, k.name = name
        · obtain ⟨k, rfl⟩ := hk
          rw [ofObject_of_kind hname]
          cases hm : ofMembers members k with
          | ok m =>
            obtain ⟨rfl, hd⟩ := (ofMembers_eq_ok_iff hvalues).mp hm
            exact .message h hp hname hd
          | error fault =>
            refine .shape h hp hname fun m hk hd => ?_
            cases hm.symm.trans ((ofMembers_eq_ok_iff hvalues).mpr ⟨hk, hd⟩)
        · have hnone : ∀ k : MessageKind, k.name ≠ name := fun k h => hk ⟨k, h⟩
          rw [ofObject_of_unknown hname hnone]
          exact .unknownKind h hp hname hnone
      · have hnone : ∀ name, kindOf members ≠ some (.string name) := fun name h => hname ⟨name, h⟩
        rw [ofObject_of_missing hnone]
        exact .missingKind h hp hnone
    · rw [decode_of_value h hp fun members hv => hobject ⟨members, hv⟩]
      exact .notObject h hp fun members hv => hobject ⟨members, hv⟩

/-- The grammar leaves no choice, but for the fault of a wrong shape. -/
theorem decode_of_decodes {r : Except DecodeFault ClientMessage} (hr : Decodes limit text r) :
    decode limit text = r ∨
      ∃ fault fault', r = .error (.shape fault) ∧ decode limit text = .error (.shape fault') := by
  cases hr with
  | tooLarge h => exact .inl (decode_of_large h)
  | notJson h hp => exact .inl (decode_of_fault h hp)
  | notObject h hp hv => exact .inl (decode_of_value h hp hv)
  | missingKind h hp hnone =>
    rw [decode_of_object h hp]
    exact .inl (ofObject_of_missing hnone)
  | unknownKind h hp hname hnone =>
    rw [decode_of_object h hp]
    exact .inl (ofObject_of_unknown hname hnone)
  | message h hp hname hm =>
    obtain ⟨_, hvalues⟩ := Json.ordered_object (Json.ordered_of_parse hp)
    rw [decode_of_object h hp, ofObject_of_kind hname, (ofMembers_eq_ok_iff hvalues).mpr ⟨rfl, hm⟩]
    exact .inl rfl
  | @shape members k fault h hp hname hnone =>
    obtain ⟨_, hvalues⟩ := Json.ordered_object (Json.ordered_of_parse hp)
    rw [decode_of_object h hp, ofObject_of_kind hname]
    cases hm : ofMembers members k with
    | ok m =>
      obtain ⟨hk, hd⟩ := (ofMembers_eq_ok_iff hvalues).mp hm
      exact absurd hd (hnone m hk)
    | error fault' => exact .inr ⟨fault, fault', rfl, rfl⟩

/-! ## Members that are not looked at -/

theorem required_congr {α : Type} {name : String} {read : Json → Except Json.ShapeFault α}
    {members' : Json.Members} (h : members.get? name = members'.get? name) :
    required name members read = required name members' read := by
  simp only [required, h]

/-- Only the kind and the members that the kind needs are looked at. -/
theorem ofObject_congr {members' : Json.Members} (hkind : kindOf members = kindOf members')
    (h : ∀ k : MessageKind, kindOf members = some (.string k.name) → ∀ name ∈ fieldNames k,
      members.get? name = members'.get? name) : ofObject members = ofObject members' := by
  by_cases hname : ∃ name, kindOf members = some (.string name)
  · obtain ⟨name, hname⟩ := hname
    have hname' := hkind.symm.trans hname
    by_cases hk : ∃ k : MessageKind, k.name = name
    · obtain ⟨k, rfl⟩ := hk
      have hfields := h k hname
      rw [ofObject_of_kind hname, ofObject_of_kind hname']
      cases k with
      | join role =>
        simp only [ofMembers, required_congr (hfields offerName (List.mem_singleton_self _))]
      | stop => rfl
      | candidate =>
        simp only [ofMembers, required_congr (hfields candidateName (List.mem_singleton_self _))]
    · have hnone : ∀ k : MessageKind, k.name ≠ name := fun k h => hk ⟨k, h⟩
      rw [ofObject_of_unknown hname hnone, ofObject_of_unknown hname' hnone]
  · have hnone : ∀ name, kindOf members ≠ some (.string name) := fun name h => hname ⟨name, h⟩
    rw [ofObject_of_missing hnone, ofObject_of_missing (hkind ▸ hnone)]

/-- An object of an older client says the same when its `id` is called `kind`. -/
theorem ofObject_rename (hsorted : members.Sorted) {v : Json} (hkind : members.get? kindName = none)
    (hold : members.get? oldKindName = some v) :
    ofObject ((members.drop oldKindName).put kindName v) = ofObject members := by
  have hget : ∀ name, ((members.drop oldKindName).put kindName v).get? name =
      if kindName = name then some v else if oldKindName = name then none else members.get? name := by
    intro name
    rw [Json.Members.get?_put (hsorted.drop _), Json.Members.get?_drop]
  have hnew : kindOf ((members.drop oldKindName).put kindName v) = some v := by
    rw [kindOf, hget, if_pos rfl]
    rfl
  have hsame : kindOf members = some v := by
    rw [kindOf, hkind, hold]
    rfl
  have hneeded : ∀ k, ∀ name ∈ fieldNames k, kindName ≠ name ∧ oldKindName ≠ name := by
    rintro (role | _ | _) name hname
    · cases List.mem_singleton.mp hname
      decide
    · cases hname
    · cases List.mem_singleton.mp hname
      decide
  refine ofObject_congr (hnew.trans hsame.symm) fun k _ name hname => ?_
  obtain ⟨hnew, hold⟩ := hneeded k name hname
  rw [hget, if_neg hnew, if_neg hold]

/-- Texts are read by the grammar alone. -/
theorem decode_by_grammar (limit : Nat) (text : String) :
    (∀ r, (∀ fault, r ≠ .error (.shape fault)) → (decode limit text = r ↔ Decodes limit text r)) ∧
    ((∃ fault, decode limit text = .error (.shape fault)) ↔
      ∃ fault, Decodes limit text (.error (.shape fault))) ∧
    (∀ (text' : String) (members members' : Json.Members), text.utf8ByteSize ≤ limit → text'.utf8ByteSize ≤ limit →
      Json.parse text = .ok (.object members) → Json.parse text' = .ok (.object members') →
      kindOf members = kindOf members' →
      (∀ k : MessageKind, kindOf members = some (.string k.name) → ∀ name ∈ fieldNames k,
        members.get? name = members'.get? name) →
      decode limit text = decode limit text') ∧
    ∀ (text' : String) (members : Json.Members) (v : Json), text.utf8ByteSize ≤ limit → text'.utf8ByteSize ≤ limit →
      Json.parse text = .ok (.object members) →
      members.get? kindName = none → members.get? oldKindName = some v →
      Json.parse text' = .ok (.object ((members.drop oldKindName).put kindName v)) →
      decode limit text' = decode limit text := by
  have hdecodes := decode_decodes limit text
  refine ⟨?_, ?_, ?_, ?_⟩
  · intro r hshape
    constructor
    · rintro rfl
      exact hdecodes
    · intro hr
      rcases decode_of_decodes hr with h | ⟨fault, _, rfl, _⟩
      · exact h
      · exact absurd rfl (hshape fault)
  · constructor
    · rintro ⟨fault, h⟩
      exact ⟨fault, h ▸ hdecodes⟩
    · rintro ⟨fault, hr⟩
      rcases decode_of_decodes hr with h | ⟨_, fault', _, h⟩
      · exact ⟨fault, h⟩
      · exact ⟨fault', h⟩
  · intro text' members members' h h' hp hp' hkind hfields
    rw [decode_of_object h hp, decode_of_object h' hp']
    exact ofObject_congr hkind hfields
  · intro text' members v h h' hp hkind hold hp'
    obtain ⟨hsorted, _⟩ := Json.ordered_object (Json.ordered_of_parse hp)
    rw [decode_of_object h hp, decode_of_object h' hp']
    exact ofObject_rename hsorted hkind hold

end ClientMessage

end Rostrum
