import Rostrum.Proofs.Json.Fields
import Rostrum.Proofs.Rpc.Matching

/-!
# Events reach those who subscribed

A listener is put in place before its subscription is asked for, so that early events find it. It goes when
the object is to be released or when subscribing the object fails. Main statement: an event brings its
candidate to the listener that was put in place last and has not gone since, once, and to nobody else;
neither an event nor a text that cannot be read changes anything.

Nothing is assumed of callers that give up: their subscriptions stay.
-/

namespace Rostrum.Rpc

variable {L : Type}

/-! ## What an event is -/

namespace Incoming

open Json (Document Spells)
open Json.Document (Agree given? optional string?)

/-- The parts of a text. A member that is null is missing. -/
def partsOf? (text : String) : Option Parts := (Document.parseLoosely text).toOption.bind parts?

theorem ofText?_eq (text : String) : ofText? text = (partsOf? text).map ofParts := by
  unfold ofText? partsOf?
  cases (Document.parseLoosely text).toOption with
  | none => rfl
  | some d =>
    simp only [Option.bind_eq_bind, Option.bind_some]
    cases parts? d <;> rfl

/-- The parts are no answer, and their parameters tell of an event. -/
structure Parts.Reports (p : Parts) (e : Event) : Prop where
  unanswering : p.id ≠ none → p.result = none ∧ p.error = none
  method : p.method = some eventMethod
  value : ∃ params value, p.params = some params ∧ params.get? "value" = some value ∧
    value.get? "type" = some (.string e.type) ∧ value.get? "object" = some (.string e.object) ∧
    e.data = (value.get? "data").getD .null

/-- A text that tells of an event. -/
def Reports (text : String) (e : Event) : Prop := ∃ p, partsOf? text = some p ∧ p.Reports e

section Parts
variable {p : Parts} {e : Event}

theorem answer?_eq_none_iff : answer? p = none ↔ (p.id ≠ none → p.result = none ∧ p.error = none) := by
  unfold answer?
  cases hid : p.id with
  | none => simp
  | some id => cases hresult : p.result <;> cases herror : p.error <;> simp

theorem answer?_ne_event (e : Event) : answer? p ≠ some (.event e) := by
  unfold answer?
  cases hid : p.id with
  | none => nofun
  | some id => cases hresult : p.result <;> cases herror : p.error <;> simp

theorem asString?_eq_some_iff {j : Json} {s : String} : j.asString? = some s ↔ j = .string s := by
  cases j <;> simp [Json.asString?]

theorem event?_eq_some_iff {params : Option Json} : event? params = some e ↔
    ∃ j value, params = some j ∧ j.get? "value" = some value ∧
      value.get? "type" = some (.string e.type) ∧ value.get? "object" = some (.string e.object) ∧
      e.data = (value.get? "data").getD .null := by
  simp only [event?, Option.bind_eq_bind, Option.bind_eq_some_iff, asString?_eq_some_iff]
  constructor
  · rintro ⟨j, hj, value, hvalue, _, htype, type, rfl, _, hobject, object, rfl, he⟩
    cases he
    exact ⟨j, value, hj, hvalue, htype, hobject, rfl⟩
  · rintro ⟨j, value, hj, hvalue, htype, hobject, hdata⟩
    obtain ⟨type, object, data⟩ := e
    obtain rfl : data = _ := hdata
    exact ⟨j, hj, value, hvalue, _, htype, type, rfl, _, hobject, object, rfl, rfl⟩

theorem ofParts_eq_event_iff : ofParts p = .event e ↔ p.Reports e := by
  unfold ofParts
  constructor
  · intro h
    split at h
    · rename_i found hfound
      exact absurd (hfound.trans (congrArg some h)) (answer?_ne_event e)
    · rename_i hnone
      split at h
      · rename_i hmethod
        split at h
        · rename_i e' hevent
          cases h
          exact ⟨answer?_eq_none_iff.mp hnone, hmethod, event?_eq_some_iff.mp hevent⟩
        · cases h
      · cases h
  · intro h
    rw [answer?_eq_none_iff.mpr h.unanswering, event?_eq_some_iff.mpr h.value]
    exact if_pos h.method

end Parts

theorem ofText?_eq_event_iff {text : String} {e : Event} :
    ofText? text = some (.event e) ↔ Reports text e := by
  rw [ofText?_eq, Option.map_eq_some_iff]
  simp only [ofParts_eq_event_iff, Reports]

/-- An object that is sent as an event: it has no number and no error, and may have anything else. -/
structure Announces (j : Json) (e : Event) : Prop where
  id : j.get? "id" = none
  error : j.get? "error" = none
  method : j.get? "method" = some (.string eventMethod)
  value : ∃ params value, j.get? "params" = some params ∧ params.get? "value" = some value ∧
    value.get? "type" = some (.string e.type) ∧ value.get? "object" = some (.string e.object) ∧
    e.data = (value.get? "data").getD .null

theorem Announces.reports {text : String} {j : Json} {e : Event} (ht : Spells text j) (h : Announces j e) :
    Reports text e := by
  obtain ⟨d, hparse, hd, hj⟩ := ht
  obtain ⟨n, members, hn, rfl⟩ := Document.object_of_get? hj h.method
  obtain ⟨params, value, hparams, hvalue, hrest⟩ := h.value
  cases hd with
  | object hnodup _ =>
    have a : Agree (Json.maxLevels - 1) members j.get? := Document.agree_of_value? hnodup hj
    have hrecord := Document.record?_of_nodup ["id", "method", "params", "result", "error"] hnodup
    have hmethod : optional string? (given? members "method") = some (some eventMethod) :=
      a.optional_of_some h.method nofun fun _ _ hv => Document.string?_of_value? hv
    have hnull : params ≠ .null := by
      rintro rfl
      cases hvalue
    have hreadParams : optional (·.value? (Json.maxLevels - 1)) (given? members "params") =
        some (some params) := a.optional_of_some hparams hnull fun _ _ hv => hv
    obtain ⟨result, hresult⟩ := a.optional_value? "result"
    have hparts : parts? (.object members) = some ⟨none, some eventMethod, some params, result, none⟩ := by
      simp [parts?, hrecord, a.optional_of_none h.id, hmethod, hreadParams, hresult,
        a.optional_of_none h.error]
    have hread : partsOf? text = some ⟨none, some eventMethod, some params, result, none⟩ := by
      simp [partsOf?, Document.parseLoosely, hparse, Except.toOption, hparts]
    exact ⟨_, hread, fun hid => absurd rfl hid, rfl, params, value, rfl, hvalue, hrest⟩

end Incoming

/-! ## Who listens -/

/-- A caller subscribes an object for a listener. -/
def Action.Subscribes (name : String) (listener : L) (a : Action L) : Prop :=
  ∃ endpoint : Endpoint, endpoint.id.name = name ∧ a = .ask (.call (.subscribe endpoint listener))

namespace Client
variable {c c' : Client L} {name : String}

theorem listeners_send (request : Request) : (c.send request).2.listeners = c.listeners := by
  unfold send
  split
  · rfl
  · split <;> rfl

theorem listeners_ask_ok {q : Inquiry L} {sent : SentRequest} (h : c.ask q = (.ok sent, c')) :
    c'.listeners = match q with
      | .call call => (c.prepare call).listeners
      | .plain _ => c.listeners := by
  cases q with
  | plain request =>
    have hsend := listeners_send (c := c) request
    rwa [show c.send request = (.ok sent, c') from h] at hsend
  | call call =>
    have hsend := listeners_send (c := c.prepare call) (ofCall call)
    simp only [ask, start] at h
    split at h
    · rename_i hsent
      cases h
      rwa [hsent] at hsend
    · cases h

theorem listeners_undo (call : EngineCall L) (h : c.listeners = c'.listeners) :
    (c.undo call).listeners = (c'.undo call).listeners := by
  cases call with
  | subscribe => exact congrArg (Table.erase · _) h
  | _ => exact h

theorem listeners_ask_error {q : Inquiry L} {fault : EngineFault} (h : c.ask q = (.error fault, c')) :
    c'.listeners = match q with
      | .call call => ((c.prepare call).undo call).listeners
      | .plain _ => c.listeners := by
  cases q with
  | plain request =>
    have hsend := listeners_send (c := c) request
    rwa [show c.send request = (.error fault, c') from h] at hsend
  | call call =>
    have hsend := listeners_send (c := c.prepare call) (ofCall call)
    simp only [ask, start] at h
    split at h
    · cases h
    · rename_i hsent
      cases h
      rw [hsent] at hsend
      exact listeners_undo call hsend

theorem listeners_learn (result : Json) : (c.learn result).listeners = c.listeners := by
  unfold learn
  cases c.session <;> rfl

theorem listeners_settle (id : Nat) (outcome : Except EngineFault Json) (q : Inquiry L) :
    (c.settle id outcome q).listeners = match q, outcome with
      | .call call, .error _ => (c.undo call).listeners
      | _, _ => c.listeners := by
  cases q with
  | plain request =>
    cases outcome with
    | ok result => exact listeners_learn result
    | error fault => rfl
  | call call =>
    cases outcome with
    | ok result => exact listeners_learn result
    | error fault => exact listeners_undo call rfl

end Client

namespace Exchange
variable {e e' : Exchange L} {a : Action L} {acts : List (Action L)} {name : String} {listener : L}

/-- The step with which nobody listens to an object any more: it is to be released, or subscribing fails. -/
inductive Lapses (e : Exchange L) (name : String) : Action L → Prop where
  | released {object : ObjectId} : object.name = name → Lapses e name (.ask (.call (.release object)))
  | refused {endpoint : Endpoint} {listener : L} {fault : EngineFault} {c : Client L} :
      endpoint.id.name = name → e.client.ask (.call (.subscribe endpoint listener)) = (.error fault, c) →
      Lapses e name (.ask (.call (.subscribe endpoint listener)))
  | failed {k id : Nat} {endpoint : Endpoint} {listener : L} {fault : EngineFault} :
      endpoint.id.name = name →
      e.calls[k]? = some ⟨.call (.subscribe endpoint listener), some id, .told (.error fault)⟩ →
      Lapses e name (.resume k)

/-- A step that leaves an object to those who listen to it. -/
structure Spares (e : Exchange L) (name : String) (a : Action L) : Prop where
  unsubscribed : ∀ l, ¬ a.Subscribes name l
  kept : ¬ e.Lapses name a

theorem listens_of_subscribes (hs : a.Subscribes name listener) (hkept : ¬ e.Lapses name a) :
    (e.perform a).client.listeners.get? name = some listener := by
  obtain ⟨endpoint, hname, rfl⟩ := hs
  have hp := e.perform_performs (.ask (.call (.subscribe endpoint listener)))
  generalize e.perform (.ask (.call (.subscribe endpoint listener))) = e' at hp
  cases hp with
  | sent h =>
    have hlisteners := congrArg (Table.get? · name) (Client.listeners_ask_ok h)
    apply hlisteners.trans
    rw [← hname]
    exact Table.get?_put_self _ _ _
  | refused h => exact absurd (.refused hname h) hkept

theorem unheard_of_lapses (h : e.Lapses name a) : (e.perform a).client.listeners.get? name = none := by
  have hp := e.perform_performs a
  generalize e.perform a = e' at hp
  cases h with
  | released hname =>
    cases hp with
    | sent h =>
      apply (congrArg (Table.get? · name) (Client.listeners_ask_ok h)).trans
      rw [← hname]
      exact Table.get?_erase_self _ _
    | refused h =>
      apply (congrArg (Table.get? · name) (Client.listeners_ask_error h)).trans
      rw [← hname]
      exact Table.get?_erase_self _ _
  | refused hname hask =>
    cases hp with
    | sent h => cases hask.symm.trans h
    | refused h =>
      apply (congrArg (Table.get? · name) (Client.listeners_ask_error h)).trans
      rw [← hname]
      exact Table.get?_erase_self _ _
  | failed hname hget =>
    cases hp with
    | resumed h =>
      cases hget.symm.trans h
      apply (congrArg (Table.get? · name) (Client.listeners_settle _ _ _)).trans
      rw [← hname]
      exact Table.get?_erase_self _ _
    | stuck h => exact absurd hget (h _ _ _)

/-- The listeners that a call leaves alone before its request. -/
theorem listens_prepare {c : Client L} {call : EngineCall L}
    (hsub : ∀ endpoint l, call = .subscribe endpoint l → endpoint.id.name ≠ name)
    (hrelease : ∀ object, call = .release object → object.name ≠ name) :
    (c.prepare call).listeners.get? name = c.listeners.get? name := by
  cases call with
  | subscribe endpoint l => exact Table.get?_put_of_ne _ _ (hsub endpoint l rfl)
  | release object => exact Table.get?_erase_of_ne _ (hrelease object rfl)
  | _ => rfl

theorem listens_undo {c : Client L} {call : EngineCall L}
    (hsub : ∀ endpoint l, call = .subscribe endpoint l → endpoint.id.name ≠ name) :
    (c.undo call).listeners.get? name = c.listeners.get? name := by
  cases call with
  | subscribe endpoint l => exact Table.get?_erase_of_ne _ (hsub endpoint l rfl)
  | _ => rfl

theorem listens_of_spares (h : e.Spares name a) :
    (e.perform a).client.listeners.get? name = e.client.listeners.get? name := by
  have hp := e.perform_performs a
  generalize e.perform a = e' at hp
  -- an inquiry that is spared concerns another object
  have hsub : ∀ q, a = .ask q → ∀ endpoint l, q = .call (.subscribe endpoint l) →
      endpoint.id.name ≠ name := by
    rintro q rfl endpoint l rfl hname
    exact h.unsubscribed l ⟨endpoint, hname, rfl⟩
  have hrelease : ∀ q, a = .ask q → ∀ object, q = .call (.release object) → object.name ≠ name := by
    rintro q rfl object rfl hname
    exact h.kept (.released hname)
  cases hp with
  | @sent q sent c hask =>
    apply (congrArg (Table.get? · name) (Client.listeners_ask_ok hask)).trans
    cases q with
    | plain request => rfl
    | call call =>
      exact listens_prepare (fun endpoint l hcall => hsub _ rfl endpoint l (congrArg Inquiry.call hcall))
        fun object hcall => hrelease _ rfl object (congrArg Inquiry.call hcall)
  | @refused q fault c hask =>
    apply (congrArg (Table.get? · name) (Client.listeners_ask_error hask)).trans
    cases q with
    | plain request => rfl
    | call call =>
      have hothers := fun endpoint l hcall => hsub _ rfl endpoint l (congrArg Inquiry.call hcall)
      apply (listens_undo hothers).trans
      exact listens_prepare hothers
        fun object hcall => hrelease _ rfl object (congrArg Inquiry.call hcall)
  | @resumed k id q outcome hget =>
    apply (congrArg (Table.get? · name) (Client.listeners_settle id outcome q)).trans
    cases q with
    | plain request => rfl
    | call call =>
      cases outcome with
      | ok result => rfl
      | error fault =>
        apply listens_undo
        rintro endpoint l rfl hname
        exact h.kept (.failed hname hget)
  | _ => rfl

/-- A listener listens to an object: it was put in place last, and nothing has ended this since. -/
def Subscribed (acts : List (Action L)) (name : String) (listener : L) : Prop :=
  ∃ before a after, acts = before ++ a :: after ∧ a.Subscribes name listener ∧
    ¬ (run before).Lapses name a ∧
    ∀ mid b rest, after = mid ++ b :: rest → (run (before ++ a :: mid)).Spares name b

theorem subscribed_concat : Subscribed (acts ++ [a]) name listener ↔
    (a.Subscribes name listener ∧ ¬ (run acts).Lapses name a) ∨
      (Subscribed acts name listener ∧ (run acts).Spares name a) := by
  constructor
  · rintro ⟨before, b, after, heq, hs, hkept, hafter⟩
    rcases List.eq_nil_or_concat after with rfl | ⟨after, c, rfl⟩
    · obtain ⟨rfl, h⟩ := List.append_inj' heq rfl
      cases h
      exact .inl ⟨hs, hkept⟩
    · rw [List.concat_eq_append] at heq hafter
      rw [← List.cons_append, ← List.append_assoc] at heq
      obtain ⟨rfl, h⟩ := List.append_inj' heq rfl
      cases h
      refine .inr ⟨⟨before, b, after, rfl, hs, hkept, ?_⟩, hafter after a [] rfl⟩
      rintro mid d rest rfl
      exact hafter mid d (rest ++ [a]) (by simp)
  · rintro (⟨hs, hkept⟩ | ⟨⟨before, b, after, rfl, hs, hkept, hafter⟩, hspares⟩)
    · refine ⟨acts, a, [], rfl, hs, hkept, ?_⟩
      intro mid d rest hsplit
      cases mid <;> cases hsplit
    · refine ⟨before, b, after ++ [a], by simp, hs, hkept, ?_⟩
      intro mid d rest hsplit
      rcases List.eq_nil_or_concat rest with rfl | ⟨rest, d', rfl⟩
      · obtain ⟨rfl, h⟩ := List.append_inj' hsplit rfl
        cases h
        exact hspares
      · rw [List.concat_eq_append, ← List.cons_append, ← List.append_assoc] at hsplit
        obtain ⟨rfl, h⟩ := List.append_inj' hsplit rfl
        exact hafter mid d rest rfl

/-- Who is noted as the listener of an object is the one that is subscribed to it. -/
theorem listeners_run (acts : List (Action L)) :
    (run acts).client.listeners.get? name = some listener ↔ Subscribed acts name listener := by
  induction acts using List.reverseRecOn with
  | nil =>
    constructor
    · nofun
    · rintro ⟨before, a, after, h, _⟩
      cases before <;> cases h
  | append_singleton acts a ih =>
    rw [run_concat, subscribed_concat, ← ih]
    by_cases hlapse : (run acts).Lapses name a
    · rw [unheard_of_lapses hlapse]
      constructor
      · nofun
      · rintro (⟨_, hkept⟩ | ⟨_, hspares⟩)
        · exact absurd hlapse hkept
        · exact absurd hlapse hspares.kept
    · by_cases hs : ∃ l, a.Subscribes name l
      · obtain ⟨l, hl⟩ := hs
        rw [listens_of_subscribes hl hlapse]
        constructor
        · rintro ⟨⟩
          exact .inl ⟨hl, hlapse⟩
        · rintro (⟨hl', _⟩ | ⟨_, hspares⟩)
          · obtain ⟨endpoint, _, rfl⟩ := hl
            obtain ⟨_, _, h⟩ := hl'
            cases h
            rfl
          · exact absurd hl (hspares.unsubscribed l)
      · have hspares : (run acts).Spares name a := ⟨fun l hl => hs ⟨l, hl⟩, hlapse⟩
        rw [listens_of_spares hspares]
        constructor
        · exact fun h => .inr ⟨h, hspares⟩
        · rintro (⟨hl, _⟩ | ⟨h, _⟩)
          · exact absurd ⟨listener, hl⟩ hs
          · exact h

/-! ## Who hears an event -/

/-- Who hears of which candidate in a step. Nobody reads what comes after the connection has ended. -/
def heard (e : Exchange L) : Action L → List (L × Candidate)
  | .receive text =>
    if e.client.connected then
      match (e.client.receive text).1 with
      | .heard listener candidate => [(listener, candidate)]
      | _ => []
    else []
  | _ => []

section Receipts
variable {c : Client L} {text : String} {event : Event} {candidate : Candidate}

theorem heard?_eq_some_iff : c.heard? event = some (listener, candidate) ↔
    event.type = candidateEvent ∧ c.listeners.get? event.object = some listener ∧
      ∃ value, event.data.get? "candidate" = some value ∧ candidateFromEngine value = .ok candidate := by
  unfold Client.heard?
  split
  · rename_i htype
    simp only [Option.bind_eq_bind, Option.bind_eq_some_iff, Event.candidate?, Option.map_eq_some_iff]
    constructor
    · rintro ⟨l, hl, _, ⟨value, hvalue, rfl⟩, found, hfound, heq⟩
      cases heq
      refine ⟨htype, hl, value, hvalue, ?_⟩
      cases hread : candidateFromEngine value with
      | ok c =>
        rw [hread] at hfound
        cases hfound
        rfl
      | error fault =>
        rw [hread] at hfound
        cases hfound
    · rintro ⟨_, hl, value, hvalue, hread⟩
      exact ⟨listener, hl, _, ⟨value, hvalue, rfl⟩, candidate, by rw [hread]; rfl, rfl⟩
  · rename_i htype
    constructor
    · nofun
    · rintro ⟨h, _⟩
      exact absurd h htype

theorem receive_eq_heard_iff : (c.receive text).1 = .heard listener candidate ↔
    ∃ event, Incoming.ofText? text = some (.event event) ∧ c.heard? event = some (listener, candidate) := by
  unfold Client.receive
  split
  · rename_i id result hread
    constructor
    · intro h
      split at h <;> cases h
    · rintro ⟨event, hevent, _⟩
      cases hread.symm.trans hevent
  · rename_i event hread
    split
    · rename_i l found hheard
      constructor
      · rintro ⟨⟩
        exact ⟨event, hread, hheard⟩
      · rintro ⟨_, hevent, h⟩
        cases hread.symm.trans hevent
        cases hheard.symm.trans h
        rfl
    · rename_i hnone
      constructor
      · nofun
      · rintro ⟨_, hevent, h⟩
        cases hread.symm.trans hevent
        cases hnone.symm.trans h
  · rename_i hother
    constructor
    · nofun
    · rintro ⟨event, hevent, _⟩
      exact absurd hevent (hother event)

end Receipts

theorem heard_receive_iff {text : String} {candidate : Candidate} :
    e.heard (.receive text) = [(listener, candidate)] ↔
      e.client.connected ∧ (e.client.receive text).1 = .heard listener candidate := by
  simp only [heard]
  split
  · rename_i hconn
    split
    · rename_i l found hreceipt
      rw [hreceipt]
      simp [hconn]
    · rename_i hother
      constructor
      · nofun
      · rintro ⟨_, h⟩
        exact absurd h (hother _ _)
  · rename_i hlost
    constructor
    · nofun
    · rintro ⟨h, _⟩
      exact absurd h hlost

theorem heard_cases (e : Exchange L) (a : Action L) :
    e.heard a = [] ∨ ∃ text listener candidate, a = .receive text ∧ e.heard a = [(listener, candidate)] := by
  cases a with
  | receive text =>
    simp only [heard]
    split
    · split
      · rename_i listener candidate _
        exact .inr ⟨text, listener, candidate, rfl, rfl⟩
      · exact .inl rfl
    · exact .inl rfl
  | _ => exact .inl rfl

/--
An event that brings a candidate is heard by the one who is subscribed to its object, once and with this
candidate; nobody hears anything else. Events and texts that cannot be read change nothing. Every object
that is sent as an event is one.
-/
theorem events_reach_subscriber (acts : List (Action L)) :
    (∀ text listener candidate, (run acts).heard (.receive text) = [(listener, candidate)] ↔
      (run acts).client.connected ∧ ∃ event value, Incoming.Reports text event ∧
        event.type = candidateEvent ∧ Subscribed acts event.object listener ∧
        event.data.get? "candidate" = some value ∧ candidateFromEngine value = .ok candidate) ∧
    (∀ a, (run acts).heard a = [] ∨
      ∃ text listener candidate, a = .receive text ∧ (run acts).heard a = [(listener, candidate)]) ∧
    (∀ text, (Incoming.partsOf? text = none ∨ ∃ event, Incoming.Reports text event) →
      run (acts ++ [.receive text]) = run acts) ∧
    ∀ text j event, Json.Spells text j → Incoming.Announces j event → Incoming.Reports text event := by
  refine ⟨?_, heard_cases (run acts), ?_, fun text j event ht h => h.reports ht⟩
  · intro text listener candidate
    rw [heard_receive_iff, receive_eq_heard_iff]
    simp only [heard?_eq_some_iff, Incoming.ofText?_eq_event_iff, listeners_run]
    constructor
    · rintro ⟨hconn, event, hreports, htype, hsubscribed, value, hvalue, hread⟩
      exact ⟨hconn, event, value, hreports, htype, hsubscribed, hvalue, hread⟩
    · rintro ⟨hconn, event, value, hreports, htype, hsubscribed, hvalue, hread⟩
      exact ⟨hconn, event, hreports, htype, hsubscribed, value, hvalue, hread⟩
  · intro text h
    rw [run_concat]
    apply receive_of_unanswering
    intro id result hanswer
    rcases h with hnone | ⟨event, hreports⟩
    · rw [Incoming.ofText?_eq, hnone] at hanswer
      cases hanswer
    · rw [Incoming.ofText?_eq_event_iff.mpr hreports] at hanswer
      cases hanswer

/-- Of two events one is about the object that is subscribed. -/
example :
    let value (object : String) : Json := .object [
      ("data", .object [("candidate", .object [("candidate", .string "line")])]),
      ("object", .string object), ("type", .string candidateEvent)]
    let event (object : String) : String := (Json.object [("method", .string Incoming.eventMethod),
      ("params", .object [("value", value object)])]).text
    let subscribed : Exchange Unit := run [.ask (.call (.subscribe ⟨⟨"endpoint"⟩⟩ ()))]
    (subscribed.heard (.receive (event "endpoint"))).length = 1 ∧
      (subscribed.heard (.receive (event "other"))).length = 0 := by
  decide +kernel

end Exchange

end Rostrum.Rpc
