import Rostrum.Proofs.Json.Fields
import Rostrum.Proofs.Rpc.Matching

/-!
# Responses complete their calls

A response is an object with the number of a request and either a result or an error. Main statement: when
a text that is such an object comes in for a call that waits, the call is told what the response reports,
and nothing else changes. Only a result that is null is taken for no result at all: its call waits on.
-/

namespace Rostrum.Rpc

open Json (Document Spells)
open Json.Document (Agree given? optional integer? string?)

/-- The object answers the request with this number. With a method it would be a request itself. -/
structure Addressed (id : Nat) (j : Json) : Prop where
  id : j.get? "id" = some (.ofNat id)
  method : j.get? "method" = none

/-- A response and the outcome that it reports. What else is in the object is left open. -/
inductive Response (id : Nat) (j : Json) : Except EngineFault Json → Prop where
  | result {v : Json} : Addressed id j → j.get? "result" = some v → j.get? "error" = none →
      Response id j (.ok v)
  | error {e : Json} {code : Int} {message : String} : Addressed id j → j.get? "error" = some e →
      e.get? "code" = some (.ofInt code) → Incoming.minCode ≤ code → code ≤ Incoming.maxCode →
      e.get? "message" = some (.string message) → Response id j (.error (.refused code message))

namespace Incoming

variable {id : Nat} {text : String} {j e v : Json} {levels : Nat} {d : Document} {code : Int}
  {message : String}

/-- An error with a code and a message is read, whatever its data are. -/
theorem error?_of_value? (hd : d.Distinct) (he : d.value? levels = some e)
    (hcode : e.get? "code" = some (.ofInt code)) (hmin : minCode ≤ code) (hmax : code ≤ maxCode)
    (hmessage : e.get? "message" = some (.string message)) :
    ∃ data, error? (levels - 1) d = some ⟨code, message, data⟩ := by
  obtain ⟨n, members, rfl, rfl⟩ := Document.object_of_get? he hcode
  cases hd with
  | object hnodup _ =>
    have a : Agree n members e.get? := Document.agree_of_value? hnodup he
    have hrecord := Document.record?_of_nodup ["code", "message", "data"] hnodup
    obtain ⟨c, _, hc, hcvalue⟩ := a.given?_of_some hcode nofun
    obtain ⟨m, _, hm, hmvalue⟩ := a.given?_of_some hmessage nofun
    obtain ⟨data, hdata⟩ := a.optional_value? "data"
    refine ⟨data, ?_⟩
    simp [error?, hrecord, hc, Document.integer?_of_value? hmin hmax hcvalue, hm,
      Document.string?_of_value? hmvalue, hdata]

section Addressed
variable (ht : Spells text j) (h : Addressed id j) (hid : (id : Int) ≤ maxId)
include ht h hid

/-- What a text that answers a request is read as is left to its result and its error. -/
theorem ofText?_of_addressed : ∃ members params, Agree (Json.maxLevels - 1) members j.get? ∧
    (∀ m ∈ members, m.2.Distinct) ∧ ∀ result error,
      optional (·.value? (Json.maxLevels - 1)) (given? members "result") = some result →
      optional (error? (Json.maxLevels - 1 - 1)) (given? members "error") = some error →
      ofText? text = some (ofParts ⟨some (id : Int), none, params, result, error⟩) := by
  obtain ⟨d, hparse, hd, hj⟩ := ht
  obtain ⟨n, members, hn, rfl⟩ := Document.object_of_get? hj h.id
  cases hd with
  | object hnodup hvalues =>
    have a : Agree (Json.maxLevels - 1) members j.get? := Document.agree_of_value? hnodup hj
    have hrecord := Document.record?_of_nodup ["id", "method", "params", "result", "error"] hnodup
    have hreadId : optional (integer? 0 maxId) (given? members "id") = some (some (id : Int)) :=
      a.optional_of_some h.id nofun fun _ _ hv => Document.integer?_of_value? (Int.natCast_nonneg id) hid hv
    have hreadMethod : optional string? (given? members "method") = some none := a.optional_of_none h.method
    obtain ⟨params, hparams⟩ := a.optional_value? "params"
    refine ⟨members, params, a, hvalues, fun result error hresult herror => ?_⟩
    have hparts : parts? (.object members) = some ⟨some (id : Int), none, params, result, error⟩ := by
      simp [parts?, hrecord, hreadId, hreadMethod, hparams, hresult, herror]
    simp [ofText?, Document.parseLoosely, hparse, Except.toOption, hparts]

theorem ofText?_of_result (hresult : j.get? "result" = some v) (hv : v ≠ .null)
    (herror : j.get? "error" = none) : ofText? text = some (.answer id (.ok v)) := by
  obtain ⟨members, params, a, _, hread⟩ := ofText?_of_addressed ht h hid
  exact hread (some v) none (a.optional_of_some hresult hv fun _ _ hd => hd) (a.optional_of_none herror)

/-- An error is read whether or not there is a result. -/
theorem ofText?_of_error (herror : j.get? "error" = some e) (hcode : e.get? "code" = some (.ofInt code))
    (hmin : minCode ≤ code) (hmax : code ≤ maxCode) (hmessage : e.get? "message" = some (.string message)) :
    ∃ data, ofText? text = some (.answer id (.error ⟨code, message, data⟩)) := by
  obtain ⟨members, params, a, hdistinct, hread⟩ := ofText?_of_addressed ht h hid
  have hnull : e ≠ .null := by
    rintro rfl
    cases hcode
  obtain ⟨d, hmem, hgiven, hd⟩ := a.given?_of_some herror hnull
  have hd' : d.Distinct := hdistinct _ (Document.mem_of_member? hmem)
  obtain ⟨data, hdata⟩ := error?_of_value? hd' hd hcode hmin hmax hmessage
  obtain ⟨result, hresult⟩ := a.optional_value? "result"
  have hgivenError : optional (error? (Json.maxLevels - 1 - 1)) (given? members "error") =
      some (some ⟨code, message, data⟩) := by
    rw [hgiven, Document.optional, hdata]
    rfl
  exact ⟨data, hread result _ hresult hgivenError⟩

/-- A null result is no result, and without one the text is no answer. -/
theorem ofText?_of_nullResult (hresult : j.get? "result" = some .null) (herror : j.get? "error" = none) :
    ofText? text = some .other := by
  obtain ⟨members, params, a, _, hread⟩ := ofText?_of_addressed ht h hid
  exact hread none none (a.optional_of_null hresult) (a.optional_of_none herror)

end Addressed

/-- A response is read as what it reports. -/
theorem ofText?_of_response {outcome : Except EngineFault Json} (ht : Spells text j)
    (h : Response id j outcome) (hid : (id : Int) ≤ maxId) (hnull : outcome ≠ .ok .null) :
    ∃ result, ofText? text = some (.answer id result) ∧ result.mapError RemoteError.toFault = outcome := by
  cases h with
  | @result v ha hresult herror =>
    have hv : v ≠ .null := fun heq => hnull (congrArg Except.ok heq)
    exact ⟨.ok v, ofText?_of_result ht ha hid hresult hv herror, rfl⟩
  | error ha herror hcode hmin hmax hmessage =>
    obtain ⟨data, hread⟩ := ofText?_of_error ht ha hid herror hcode hmin hmax hmessage
    exact ⟨_, hread, rfl⟩

theorem ofText?_of_nullResponse (ht : Spells text j) (h : Response id j (.ok .null))
    (hid : (id : Int) ≤ maxId) : ofText? text = some .other := by
  cases h with
  | result ha hresult herror => exact ofText?_of_nullResult ht ha hid hresult herror

end Incoming

/-- The response that gives a request its result. -/
def answerTo (id : Nat) (result : Json) : Json :=
  .object [("id", .ofNat id), ("jsonrpc", .string "2.0"), ("result", result)]

theorem response_answerTo (id : Nat) (result : Json) : Response id (answerTo id result) (.ok result) :=
  .result ⟨rfl, rfl⟩ rfl rfl

theorem spells_answerTo {id : Nat} {result : Json} (hid : id ≤ Numeral.maxSignificand)
    (hordered : result.Ordered) (hwhole : result.Whole) (hdepth : result.depth < Json.maxLevels) :
    Spells (answerTo id result).text (answerTo id result) := by
  have hnames : ["id", "jsonrpc", "result"].Pairwise (· < ·) := by decide +kernel
  apply Json.spells_text
  · refine .object (List.pairwise_map.mp hnames) fun m hm => ?_
    simp only [List.mem_cons, List.not_mem_nil, or_false] at hm
    rcases hm with rfl | rfl | rfl
    · exact .number _
    · exact .string _
    · exact hordered
  · refine .object fun m hm => ?_
    simp only [List.mem_cons, List.not_mem_nil, or_false] at hm
    rcases hm with rfl | rfl | rfl
    · exact .number (by omega) (by omega)
    · exact .string _
    · exact hwhole
  · simp only [answerTo, Json.depth, Json.depthOfMembers, Json.ofNat]
    omega

namespace Exchange

variable {L : Type}

/-- A text that is neither an answer nor an event changes nothing. -/
theorem receive_of_other (e : Exchange L) {text : String} (ht : Incoming.ofText? text = some .other) :
    e.perform (.receive text) = e := by
  apply receive_of_unanswering
  intro id result hanswer
  cases ht.symm.trans hanswer

/--
A response to a call that waits completes it, unless its result is null: the call is told the outcome and
returns it when its caller goes on, and nothing else changes. A null result changes nothing at all.
-/
theorem response_completes_call (acts : List (Action L)) {id : Nat} {text : String} {j : Json}
    {outcome : Except EngineFault Json} (hpending : id ∈ (run acts).client.pending)
    (hid : (id : Int) ≤ Incoming.maxId) (ht : Spells text j) (hr : Response id j outcome) :
    ∃ k q, (run acts).calls[k]? = some ⟨q, some id, .waiting⟩ ∧
      (outcome ≠ .ok .null →
        run (acts ++ [.receive text]) =
          { run acts with
            client := { (run acts).client with
              pending := (run acts).client.pending.filter fun i => i ≠ id }
            calls := (run acts).calls.set k ⟨q, some id, .told outcome⟩ } ∧
        ∀ more, .cancel k ∉ more →
          (k, outcome) ∈ (run (acts ++ .receive text :: more ++ [.resume k])).returns) ∧
      (outcome = .ok .null → run (acts ++ [.receive text]) = run acts) := by
  have w := Sound.run acts
  obtain ⟨k, q, hcall⟩ := (w.pending id).mp hpending
  refine ⟨k, q, hcall, fun hnull => ?_, ?_⟩
  · obtain ⟨result, hread, hresult⟩ := Incoming.ofText?_of_response ht hr hid hnull
    have hreceive := receive_of_waiting w hcall hread
    rw [hresult, ← run_concat] at hreceive
    refine ⟨hreceive, fun more hmore => ?_⟩
    have htold : (run (acts ++ [.receive text])).calls[k]? = some ⟨q, some id, .told outcome⟩ := by
      rw [hreceive]
      exact (getElem?_set_of_some hcall k).trans (if_pos rfl)
    have hsplit : acts ++ .receive text :: more = (acts ++ [.receive text]) ++ more := by simp
    rw [hsplit]
    exact returns_of_told (acts ++ [.receive text]) htold hmore
  · rintro rfl
    rw [run_concat, receive_of_other _ (Incoming.ofText?_of_nullResponse ht hr hid)]

/-- A call that connects an endpoint, and is under way as the first one. -/
def connecting : Action Unit := .ask (.call (.connect ⟨"endpoint"⟩ ⟨"port"⟩))

/-- A call that asks for no value completes with an empty object. -/
theorem empty_result_completes :
    (0, .ok (.object [])) ∈
      (run ([connecting] ++ .receive (answerTo 1 (.object [])).text :: [] ++ [.resume 0])).returns := by
  have ht : Spells (answerTo 1 (.object [])).text (answerTo 1 (.object [])) :=
    spells_answerTo (by decide) (.object .nil nofun) (.object nofun) (by decide)
  obtain ⟨k, q, hcall, hcompletes, _⟩ :=
    response_completes_call [connecting] List.mem_cons_self (by decide) ht (response_answerTo 1 _)
  obtain ⟨hlt, _⟩ := List.getElem?_eq_some_iff.mp hcall
  obtain rfl : k = 0 := Nat.lt_one_iff.mp hlt
  exact (hcompletes nofun).2 [] nofun

/-- A call that asks for no value waits on when its result is null. -/
theorem null_result_unanswered :
    ¬ ∀ (acts : List (Action Unit)) (id : Nat) (text : String) (j : Json)
      (outcome : Except EngineFault Json), id ∈ (run acts).client.pending →
      (id : Int) ≤ Incoming.maxId → Spells text j → Response id j outcome →
      id ∉ (run (acts ++ [.receive text])).client.pending := by
  intro hclaim
  have ht : Spells (answerTo 1 .null).text (answerTo 1 .null) :=
    spells_answerTo (by decide) .null .null (by decide)
  have hr := response_answerTo 1 .null
  have hmax : ((1 : Nat) : Int) ≤ Incoming.maxId := by decide
  have hsame : run ([connecting] ++ [.receive (answerTo 1 .null).text]) = run [connecting] :=
    (run_concat _ _).trans (receive_of_other _ (Incoming.ofText?_of_nullResponse ht hr hmax))
  have hgone := hclaim [connecting] 1 _ _ _ List.mem_cons_self hmax ht hr
  rw [hsame] at hgone
  exact hgone List.mem_cons_self

end Exchange

end Rostrum.Rpc
