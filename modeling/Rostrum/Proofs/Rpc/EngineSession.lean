import Rostrum.Proofs.Json.Extensional
import Rostrum.Proofs.Rpc.Matching

/-!
# The session of the engine

The client reads the engine's session when it builds a request and writes it when a caller goes on with a
result. Main statement: whatever the order of calls, the session is that of the first result with which a
call completed and which names one. It stays from then on, and a request carries it if it was built after
that call completed; its other parameters are those that were asked for.
-/

namespace Rostrum.Rpc

variable {L : Type}

/-- The session that the outcome of a call names. -/
def sessionIn? : Except EngineFault Json → Option String
  | .ok result => resultSession? result
  | .error _ => none

theorem resultSession?_eq_some_iff {result : Json} {s : String} :
    resultSession? result = some s ↔ result.get? sessionName = some (.string s) := by
  rw [resultSession?, Option.bind_eq_some_iff]
  constructor
  · rintro ⟨v, hv, hs⟩
    cases v with
    | string text =>
      cases hs
      exact hv
    | _ => cases hs
  · intro h
    exact ⟨_, h, rfl⟩

theorem sessionIn?_eq_some_iff {outcome : Except EngineFault Json} {s : String} :
    sessionIn? outcome = some s ↔
      ∃ result, outcome = .ok result ∧ result.get? sessionName = some (.string s) := by
  cases outcome with
  | ok result =>
    apply resultSession?_eq_some_iff.trans
    constructor
    · intro h
      exact ⟨result, rfl, h⟩
    · rintro ⟨_, ⟨⟩, h⟩
      exact h
  | error fault =>
    constructor
    · nofun
    · rintro ⟨_, ⟨⟩, _⟩

/-! ## Requests with a session -/

/-- What is asked, before it has a number and a session. -/
def Inquiry.request : Inquiry L → Request
  | .call asked => ofCall asked
  | .plain asked => asked

/-- What the client is used for: calls of the engine, and pings. -/
inductive Inquiry.Ordinary : Inquiry L → Prop where
  | call (call : EngineCall L) : Ordinary (.call call)
  | ping (millis : Nat) : Ordinary (.plain ⟨"ping", pingParams millis⟩)

section Params
open Json.Members
variable {j : Json}

/-- Parameters to which a session can be added, and which have none yet. -/
def Unaddressed (j : Json) : Prop :=
  ∃ members, j = .object members ∧ Sorted members ∧ get? sessionName members = none

theorem unaddressed_mkObject (members : List (String × Json)) (hnames : (members.map Prod.fst).Nodup)
    (hnone : get? sessionName members = none) : Unaddressed (Json.mkObject members) :=
  ⟨_, rfl, sorted_ofList members, (get?_ofList hnames sessionName).trans hnone⟩

theorem Inquiry.Ordinary.unaddressed {q : Inquiry L} (h : q.Ordinary) : Unaddressed q.request.params := by
  cases h with
  | call asked =>
    cases asked with
    | createPipeline | createMixer | createEndpoint | createPort =>
      exact unaddressed_mkObject [_, _, _] (by simp) rfl
    | connect | processOffer | gather | addCandidate =>
      exact unaddressed_mkObject [_, _, _] (by simp) rfl
    | release => exact unaddressed_mkObject [_] (by simp) rfl
    | subscribe => exact unaddressed_mkObject [_, _] (by simp) rfl
  | ping millis => exact unaddressed_mkObject [_] (by simp) rfl

theorem get?_withSession (h : Unaddressed j) (session : Option String) (name : String) :
    (withSession j session).get? name =
      if name = sessionName then session.map .string else j.get? name := by
  obtain ⟨members, rfl, hsorted, hnone⟩ := h
  cases session with
  | none =>
    split
    · rename_i hname
      rw [hname]
      exact hnone
    · rfl
  | some s =>
    apply (get?_put hsorted sessionName name (.string s)).trans
    simp only [eq_comm (a := sessionName)]
    rfl

end Params

namespace Client
variable {c c' : Client L}

theorem session_prepare (call : EngineCall L) : (c.prepare call).session = c.session := by
  cases call <;> rfl

theorem session_undo (call : EngineCall L) : (c.undo call).session = c.session := by
  cases call <;> rfl

theorem session_send (request : Request) : (c.send request).2.session = c.session := by
  unfold send
  split
  · rfl
  · split <;> rfl

theorem session_ask (q : Inquiry L) : (c.ask q).2.session = c.session := by
  cases q with
  | plain request => exact session_send request
  | call call =>
    have hsend := session_send (c := c.prepare call) (ofCall call)
    rw [session_prepare] at hsend
    simp only [ask, start]
    generalize (c.prepare call).send (ofCall call) = sent at hsend
    obtain ⟨answer, c'⟩ := sent
    cases answer with
    | ok sent => exact hsend
    | error fault => exact (session_undo call).trans hsend

theorem send_request {request : Request} {sent : SentRequest} (h : c.send request = (.ok sent, c')) :
    sent.request = { request with params := withSession request.params c.session } := by
  unfold send at h
  split at h
  · cases h
  · split at h
    · cases h
    · cases h
      rfl

/-- A request is built with the session of the client that sends it. -/
theorem ask_request {q : Inquiry L} {sent : SentRequest} (h : c.ask q = (.ok sent, c')) :
    sent.request = { q.request with params := withSession q.request.params c.session } := by
  cases q with
  | plain request => exact send_request h
  | call call =>
    simp only [ask, start] at h
    split at h
    · rename_i hsend
      cases h
      have hrequest := send_request hsend
      rwa [session_prepare] at hrequest
    · cases h

theorem session_learn (result : Json) : (c.learn result).session = c.session.or (resultSession? result) := by
  unfold learn
  cases h : c.session <;> simp [h]

theorem session_settle (id : Nat) (outcome : Except EngineFault Json) (q : Inquiry L) :
    (c.settle id outcome q).session = c.session.or (sessionIn? outcome) := by
  have hfail : c.session = c.session.or none := (Option.or_none).symm
  cases q with
  | plain request =>
    cases outcome with
    | ok result => exact session_learn result
    | error fault => exact hfail
  | call call =>
    cases outcome with
    | ok result => exact session_learn result
    | error fault => exact (session_undo call).trans hfail

end Client

namespace Exchange
variable {e e' : Exchange L} {a : Action L}

/-- A step by which the session becomes known: a caller goes on with a result that names one. -/
def Learns (e : Exchange L) (a : Action L) (s : String) : Prop :=
  ∃ k q id result, a = .resume k ∧ e.calls[k]? = some ⟨q, some id, .told (.ok result)⟩ ∧
    result.get? sessionName = some (.string s)

/-- A step completes calls, and the session is the first that was named by one of these. -/
theorem session_perform (e : Exchange L) (a : Action L) :
    ∃ more, (e.perform a).returns = e.returns ++ more ∧
      (e.perform a).client.session = e.client.session.or (more.findSome? fun r => sessionIn? r.2) ∧
      ∀ s, more.findSome? (fun r => sessionIn? r.2) = some s → e.Learns a s := by
  have hp := e.perform_performs a
  generalize e.perform a = e' at hp
  have hidle : e.client.session =
      e.client.session.or (([] : List (Nat × Except EngineFault Json)).findSome? fun r => sessionIn? r.2) :=
    (Option.or_none).symm
  have hnone : e.returns = e.returns ++ [] := (List.append_nil _).symm
  cases hp with
  | @sent q sent c hask =>
    have hsession := Client.session_ask (c := e.client) q
    rw [hask] at hsession
    exact ⟨[], hnone, hsession.trans hidle, nofun⟩
  | @refused q fault c hask =>
    have hsession := Client.session_ask (c := e.client) q
    rw [hask] at hsession
    exact ⟨_, rfl, hsession.trans hidle, nofun⟩
  | @resumed k id q outcome hget =>
    have hnames : [(k, outcome)].findSome? (fun r => sessionIn? r.2) = sessionIn? outcome := by
      simp
    refine ⟨_, rfl, ?_, ?_⟩
    · rw [hnames]
      exact Client.session_settle id outcome q
    · intro s hs
      rw [hnames] at hs
      obtain ⟨result, rfl, hresult⟩ := sessionIn?_eq_some_iff.mp hs
      exact ⟨k, q, id, result, rfl, hget, hresult⟩
  | _ => exact ⟨[], hnone, hidle, nofun⟩

/-- The session is the first that a completed call has named. -/
theorem session_run (acts : List (Action L)) :
    (run acts).client.session = (run acts).returns.findSome? fun r => sessionIn? r.2 := by
  induction acts using List.reverseRecOn with
  | nil => rfl
  | append_singleton acts a ih =>
    obtain ⟨more, hreturns, hsession, _⟩ := session_perform (run acts) a
    rw [run_concat, hreturns, hsession, ih, List.findSome?_append]

theorem session_stays (acts more : List (Action L)) {s : String}
    (h : (run acts).client.session = some s) : (run (acts ++ more)).client.session = some s := by
  obtain ⟨rest, hrest⟩ := returns_run_append acts more
  rw [session_run] at h ⊢
  rw [hrest, List.findSome?_append, h]
  rfl

theorem sent_ask {acts : List (Action L)} {q : Inquiry L} {r : SentRequest}
    (h : (run (acts ++ [.ask q])).sent = (run acts).sent ++ [r]) :
    ∃ c, (run acts).client.ask q = (.ok r, c) := by
  rw [run_concat] at h
  have hp := (run acts).perform_performs (.ask q)
  generalize (run acts).perform (.ask q) = e' at hp h
  cases hp with
  | @sent _ sent c hask =>
    have hsame := List.append_cancel_left h
    cases hsame
    exact ⟨c, hask⟩
  | refused _ =>
    have hlength := congrArg List.length h
    simp at hlength

/--
The engine's session is that of the first result with which a call completed and which names one. It never
changes afterwards, only a caller that goes on with a result makes it known, and every request carries what
was known when it was built, beside the parameters that were asked for.
-/
theorem session_learned_once (acts : List (Action L)) :
    (∀ s, (run acts).client.session = some s ↔ ∃ before k result after,
      (run acts).returns = before ++ (k, .ok result) :: after ∧
        result.get? sessionName = some (.string s) ∧
        ∀ k' result', (k', .ok result') ∈ before → ∀ s', result'.get? sessionName ≠ some (.string s')) ∧
    (∀ more s, (run acts).client.session = some s → (run (acts ++ more)).client.session = some s) ∧
    (∀ a, (run (acts ++ [a])).client.session = (run acts).client.session ∨
      ∃ s, (run acts).client.session = none ∧ (run (acts ++ [a])).client.session = some s ∧
        (run acts).Learns a s) ∧
    (∀ k result, (k, .ok result) ∈ (run acts).returns → Answered acts k (.ok result) ∧
      ∃ q n, (run acts).calls[k]? = some ⟨q, n, .returned⟩) ∧
    ∀ q r, q.Ordinary → (run (acts ++ [.ask q])).sent = (run acts).sent ++ [r] →
      r.request.method = q.request.method ∧
      r.request.params.get? sessionName = (run acts).client.session.map .string ∧
      ∀ name, name ≠ sessionName → r.request.params.get? name = q.request.params.get? name := by
  refine ⟨?_, fun more s => session_stays acts more, ?_, ?_, ?_⟩
  · intro s
    rw [session_run, List.findSome?_eq_some_iff]
    constructor
    · rintro ⟨before, ⟨k, outcome⟩, after, hreturns, hs, hbefore⟩
      obtain ⟨result, rfl, hresult⟩ := sessionIn?_eq_some_iff.mp hs
      refine ⟨before, k, result, after, hreturns, hresult, ?_⟩
      intro k' result' hmem s' hs'
      have hnone := hbefore _ hmem
      rw [sessionIn?, resultSession?_eq_some_iff.mpr hs'] at hnone
      cases hnone
    · rintro ⟨before, k, result, after, hreturns, hresult, hbefore⟩
      refine ⟨before, _, after, hreturns, sessionIn?_eq_some_iff.mpr ⟨result, rfl, hresult⟩, ?_⟩
      rintro ⟨k', outcome⟩ hmem
      rw [Option.eq_none_iff_forall_ne_some]
      intro s' hs'
      obtain ⟨result', rfl, hresult'⟩ := sessionIn?_eq_some_iff.mp hs'
      exact hbefore k' result' hmem s' hresult'
  · intro a
    obtain ⟨more, _, hsession, hlearns⟩ := session_perform (run acts) a
    rw [run_concat, hsession]
    cases hknown : (run acts).client.session with
    | some s => exact .inl rfl
    | none =>
      cases hfound : more.findSome? fun r => sessionIn? r.2 with
      | none => exact .inl rfl
      | some s => exact .inr ⟨s, rfl, rfl, hlearns s hfound⟩
  · intro k result hmem
    refine ⟨?_, (Sound.run acts).returned k (List.mem_map_of_mem hmem)⟩
    rcases answered_of_returned acts hmem with hlost | hsilent | hanswered
    · cases hlost
    · cases hsilent
    · exact hanswered
  · intro q r hq hsent
    obtain ⟨c, hask⟩ := sent_ask hsent
    have hrequest := Client.ask_request hask
    have hparams := get?_withSession hq.unaddressed (run acts).client.session
    rw [hrequest]
    refine ⟨rfl, (hparams sessionName).trans (if_pos rfl), ?_⟩
    intro name hname
    exact (hparams name).trans (if_neg hname)

/-- Two calls are under way, and the second one completes first. -/
example :
    let answer (id : Int) (session : String) : String := (Json.object [("id", .ofInt id),
      ("result", .object [("sessionId", .string session), ("value", .string "object")])]).text
    let acts : List (Action Unit) := [.ask (.call .createPipeline), .ask (.call .createPipeline),
      .receive (answer 1 "first"), .receive (answer 2 "second"), .resume 1, .resume 0]
    (run acts).client.session = some "second" := by
  decide +kernel

end Exchange

end Rostrum.Rpc
