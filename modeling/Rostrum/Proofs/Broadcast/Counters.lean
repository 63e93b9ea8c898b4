import Rostrum.Proofs.Broadcast.Gauges
import Rostrum.Proofs.Broadcast.Outcome
import Rostrum.Proofs.Broadcast.Teardowns
import Rostrum.Proofs.Registry.Path

/-!
# What the counters count

Three counters are raised on one occasion each. A negotiation that completes is counted as accepted, a
candidate that is put into the buffer as buffered, and a release that the engine refuses as failed. No
other step moves them, so each of them agrees with what the log of a run shows.
-/

namespace Rostrum

open Broadcast

/-- The counters that are raised on one occasion each. -/
structure Counts where
  accepted : Role → Nat
  buffered : Nat
  failed : Nat

/-- Counts one more negotiation as accepted. -/
def Counts.accept (k : Counts) (role : Role) : Counts :=
  { k with accepted := fun role' => k.accepted role' + if role' = role then 1 else 0 }

namespace Metrics
variable (m : Metrics)

def counts : Counts where
  accepted role := m.negotiated (Coordinator.labels role .accepted)
  buffered := m.candidatesBuffered
  failed := m.releaseFailures

@[simp] theorem counts_addActive (role : String) (delta : Int) :
    (m.addActive role delta).counts = m.counts := by
  unfold addActive
  split
  · rfl
  · split <;> rfl

theorem accepted_countNegotiation (role : Role) (verdict : Verdict) (role' : Role) :
    (m.countNegotiation (Coordinator.labels role verdict)).counts.accepted role' =
      m.counts.accepted role' + if role' = role ∧ .accepted = verdict then 1 else 0 :=
  @Coordinator.counted_of_count { metrics := m }
    { metrics := m.countNegotiation (Coordinator.labels role verdict) } role verdict rfl role' .accepted

@[simp] theorem counts_rejected (role : Role) :
    (m.countNegotiation (Coordinator.labels role .rejected)).counts = m.counts := by
  have haccepted := funext (m.accepted_countNegotiation role .rejected)
  simp only [reduceCtorEq, and_false, if_false, Nat.add_zero] at haccepted
  exact congrArg (fun f => Counts.mk f m.candidatesBuffered m.releaseFailures) haccepted

@[simp] theorem counts_accepted (role : Role) :
    (m.countNegotiation (Coordinator.labels role .accepted)).counts = m.counts.accept role := by
  have haccepted := funext (m.accepted_countNegotiation role .accepted)
  simp only [and_true] at haccepted
  exact congrArg (fun f => Counts.mk f m.candidatesBuffered m.releaseFailures) haccepted

end Metrics

/-! ## What the log shows -/

namespace CandidateBuffer
variable {b b' : CandidateBuffer} {s : SessionId} {c : Candidate}

theorem count_push : (b.push s c).count s = b.count s + 1 := by
  simp [count, waiting_push]

theorem count_pop (h : b.pop s = some (c, b')) : b'.count s ≤ b.count s := by
  obtain ⟨rest, hwaits, rfl⟩ := pop_eq_some_iff.mp h
  have hrest : waiting ⟨b.queues.put s rest⟩ s = rest := by simp [waiting]
  simp [count, hwaits, hrest]

theorem count_clear : (b.clear s).count s = 0 := by
  simp [count, clear, waiting]

end CandidateBuffer

namespace Registry

/-- Whether a call may count as something. -/
def Call.isCounted : Call → Bool
  | .submit _ _ => true
  | .finish _ _ => true
  | _ => false

namespace Deed

/-- The entry that a call makes ready. -/
def completed (d : Deed) : List Entry :=
  match d.call, d.answer with
  | .finish s a, .granted =>
    ((d.before.attempt? s a).filter fun e => e.phase = .pending).toList.map fun e =>
      { e with phase := .ready }
  | _, _ => []

/-- After the call more candidates of its session wait than before. -/
def puts (d : Deed) : Bool :=
  d.before.buffer.count d.call.session < (d.before.next d.call).buffer.count d.call.session

end Deed

def completed (log : List Deed) : List Entry := log.flatMap Deed.completed

end Registry

namespace Broadcast

/-- A release came back with an error. -/
def Event.refused : Event → Bool
  | .replied _ task (.error _) => (task.call?.bind EngineCall.released?).isSome
  | _ => false

end Broadcast

/-- Raises the counters by what a log shows. -/
def Counts.raise (k : Counts) (log : List Event) : Counts where
  accepted role := k.accepted role + tally role (Registry.completed (deeds log))
  buffered := k.buffered + (deeds log).countP Registry.Deed.puts
  failed := k.failed + log.countP Event.refused

namespace Registry
variable {r : Registry} {call : Call} {calls : List Call}

/-- Only a submission puts a candidate into the buffer, and its answer says so. -/
theorem puts_iff (call : Call) : (Deed.mk r call).puts ↔
    (∃ s c, call = .submit s c) ∧ r.answer call = .destination .buffered := by
  have ho := r.perform_outcome call
  unfold Deed.puts
  rw [decide_eq_true_iff]
  dsimp only
  revert ho
  generalize r.answer call = ans
  generalize r.next call = r'
  intro ho
  cases ho with
  | buffered => simp [Call.session, CandidateBuffer.count_push]
  | endpointSet | portSet => split <;> simp [Answer.ofUnit]
  | popped _ hpop => simpa [Call.session] using CandidateBuffer.count_pop hpop
  | drained | stoppedNothing | marked | tornDown | removedCurrent =>
    simp [Call.session, clearBuffer, CandidateBuffer.count_clear]
  | _ => simp

theorem puts_of_uncounted (h : call.isCounted = false) : (Deed.mk r call).puts = false := by
  rw [Bool.eq_false_iff]
  intro hputs
  obtain ⟨⟨s, c, rfl⟩, _⟩ := (puts_iff call).mp hputs
  cases h

theorem completed_of_uncounted (h : call.isCounted = false) : (Deed.mk r call).completed = [] := by
  cases call <;> first | rfl | cases h

theorem completed_append (log more : List Deed) : completed (log ++ more) = completed log ++ completed more :=
  List.flatMap_append

theorem counts_nothing (h : ∀ call ∈ calls, call.isCounted = false) :
    completed (r.log calls) = [] ∧ (r.log calls).countP Deed.puts = 0 := by
  induction calls generalizing r with
  | nil => exact ⟨rfl, rfl⟩
  | cons call rest ih =>
    obtain ⟨hcall, hrest⟩ := List.forall_mem_cons.mp h
    obtain ⟨hcompleted, hputs⟩ := @ih (r.next call) hrest
    refine ⟨?_, ?_⟩
    · change (Deed.mk r call).completed ++ completed ((r.next call).log rest) = []
      rw [completed_of_uncounted hcall, hcompleted, List.append_nil]
    · simp [log, puts_of_uncounted hcall, hputs]

/-- A negotiation that asks to be completed is, unless it was stopped. -/
theorem completed_finish {s : SessionId} {a : Attempt} {e : Entry} (h : r.attempt? s a = some e)
    (hpending : e.phase = .pending) : (Deed.mk r (.finish s a)).completed =
      if (r.running? s a).isSome then [{ e with phase := .ready }] else [] := by
  unfold Deed.completed Deed.answer answer perform
  rcases r.finish_cases s a with ⟨hnone, hr⟩ | ⟨e', hrun, hr⟩
  · simp [hr, hnone]
  · simp [hr, hrun, h, hpending]

end Registry

namespace Counts
variable (k : Counts)

theorem raise_append (log more : List Event) : k.raise (log ++ more) = (k.raise log).raise more := by
  simp [raise, deeds, Registry.completed_append, ← Multiset.coe_add, tally_add, Nat.add_assoc]

theorem raise_takeEvents (r : Registry) (t : TaskId) (before : Option Task) (reply : Option Reply)
    (calls : List Registry.Call) (after : Option Task) :
    k.raise (takeEvents r t before reply calls after) =
      { accepted := fun role => k.accepted role + tally role (Registry.completed (r.log calls)),
        buffered := k.buffered + (r.log calls).countP Registry.Deed.puts,
        failed := k.failed + (repliedEvents t before reply).countP Event.refused } := by
  have hreplied : (takeEvents r t before reply calls after).countP Event.refused =
      (repliedEvents t before reply).countP Event.refused := by
    have hcalled : ((r.log calls).map Event.called).countP Event.refused = 0 := by
      simp [List.countP_map, Function.comp_def, Event.refused]
    have hissued : (issuedEvents t after).countP Event.refused = 0 := by
      rcases issuedEvents_cases t after with ⟨h, _⟩ | ⟨task, _, h⟩ <;> rw [h] <;> rfl
    rw [takeEvents, List.countP_append, List.countP_append, hcalled, hissued]
    rfl
  simp only [raise, deeds_takeEvents, hreplied]

theorem raise_of_uncounted {r : Registry} {t : TaskId} {before : Option Task} {reply : Option Reply}
    {calls : List Registry.Call} {after : Option Task} (h : ∀ call ∈ calls, call.isCounted = false) :
    k.raise (takeEvents r t before reply calls after) =
      { k with failed := k.failed + (repliedEvents t before reply).countP Event.refused } := by
  obtain ⟨hcompleted, hputs⟩ := Registry.counts_nothing (r := r) h
  rw [raise_takeEvents, hcompleted, hputs]
  rfl

end Counts

namespace Coordinator
variable (c : Coordinator) (t : TaskId) (n : Negotiation)

/-! ## Steps that count nothing -/

@[simp] theorem settle_counts (e : Entry) : (c.settle e).metrics.counts = c.metrics.counts := by
  unfold settle
  split <;> simp

@[simp] theorem reject_counts (s : SessionId) (role : Role) (fault : NegotiationFault) :
    (c.reject s role fault).2.metrics.counts = c.metrics.counts := by
  unfold reject
  split <;> simp

@[simp] theorem release_counts (e : Entry) (objects : List ObjectId) :
    (c.release e objects).2.metrics.counts = c.metrics.counts := by
  cases objects <;> simp [release]

@[simp] theorem stop_counts (s : SessionId) : (c.stop s).2.metrics.counts = c.metrics.counts := by
  unfold stop
  rcases c.registry.stop_cases s with ⟨_, hs⟩ | ⟨_, _, _, hs⟩ | ⟨_, _, _, hs⟩ <;> simp [hs]

theorem stopTask_counts {step : Progress Teardown Unit × Coordinator}
    (h : step.2.metrics.counts = c.metrics.counts) (s : SessionId) (leaving : Bool) :
    (stopTask s leaving step).coordinator.metrics.counts = c.metrics.counts := by
  obtain ⟨_ | _, c'⟩ := step <;> exact h

@[simp] theorem shutdownMix_counts :
    (c.shutdownMix t).coordinator.metrics.counts = c.metrics.counts := by
  unfold shutdownMix
  split <;> rfl

theorem shutdownFrom_counts (order : List SessionId) :
    (c.shutdownFrom t order).coordinator.metrics.counts = c.metrics.counts := by
  induction order generalizing c with
  | nil => exact c.shutdownMix_counts t
  | cons s left ih =>
    have hstop := c.stop_counts s
    unfold shutdownFrom
    generalize c.stop s = stopped at hstop
    obtain ⟨d | _, c'⟩ := stopped
    · exact hstop
    · exact (ih c').trans hstop

@[simp] theorem giveUp_counts (fault : NegotiationFault) (e : Entry) (objects : List ObjectId) :
    (c.giveUp n fault e objects).coordinator.metrics.counts = c.metrics.counts := by
  cases objects with
  | cons => rfl
  | nil => cases hs : e.stopped <;> simp [giveUp, hs]

@[simp] theorem abort_counts (fault : NegotiationFault) :
    (c.abort n fault).coordinator.metrics.counts = c.metrics.counts := by
  unfold abort
  split <;> simp

@[simp] theorem advance_counts (stage : NegotiationStage) :
    (c.advance n stage).coordinator.metrics.counts = c.metrics.counts := rfl

@[simp] theorem advanceChecked_counts (stage : NegotiationStage) :
    (c.advanceChecked n stage).coordinator.metrics.counts = c.metrics.counts := by
  unfold advanceChecked
  split <;> simp

@[simp] theorem answered_counts (endpoint : Endpoint) (answer : String) :
    (c.answered n endpoint answer).coordinator.metrics.counts = c.metrics.counts := by
  unfold answered
  split <;> simp

@[simp] theorem drain_counts (endpoint : Endpoint) :
    (c.drain n endpoint).coordinator.metrics.counts = c.metrics.counts := by
  unfold drain
  split <;> simp

@[simp] theorem afterMix_counts (step : MixCell.RequestStep) :
    (c.afterMix n step).coordinator.metrics.counts = c.metrics.counts := by
  obtain ⟨_ | _ | _, mix⟩ := step <;> simp [afterMix]

@[simp] theorem start_counts : (c.start t n).coordinator.metrics.counts = c.metrics.counts := by
  unfold start
  split <;> simp

@[simp] theorem endpointMade_counts (mix : SharedMix) (endpoint : Endpoint) :
    (c.endpointMade n mix endpoint).coordinator.metrics.counts = c.metrics.counts := by
  unfold endpointMade
  split
  · simp
  · dsimp only
    split <;> simp

@[simp] theorem portMade_counts (endpoint : Endpoint) (port : MixerPort) :
    (c.portMade n endpoint port).coordinator.metrics.counts = c.metrics.counts := by
  unfold portMade
  split <;> simp

@[simp] theorem mixRequested_counts (step : MixCell.RequestStep) :
    (c.mixRequested step).coordinator.metrics.counts = c.metrics.counts := by
  unfold mixRequested
  split <;> rfl

@[simp] theorem mixWithdrawn_counts (step : MixCell.WithdrawalStep) :
    (c.mixWithdrawn step).coordinator.metrics.counts = c.metrics.counts := by
  unfold mixWithdrawn
  split <;> rfl

@[simp] theorem shutdownWithdrawn_counts (step : MixCell.WithdrawalStep) :
    (c.shutdownWithdrawn step).coordinator.metrics.counts = c.metrics.counts := by
  unfold shutdownWithdrawn
  split <;> rfl

theorem stepTurn_counts (task : Task) :
    (c.stepTurn t task).coordinator.metrics.counts = c.metrics.counts := by
  unfold stepTurn
  split <;> simp

/-! ## Steps that count something -/

theorem complete_counts (answer : String) : (c.complete n answer).coordinator.metrics.counts =
    if (c.registry.running? n.session n.attempt).isSome then c.metrics.counts.accept n.role
    else c.metrics.counts := by
  unfold complete
  rcases c.registry.finish_cases n.session n.attempt with ⟨hnone, hr⟩ | ⟨e, hrun, hr⟩
  · simp [hr, hnone]
  · simp [hr, hrun]

/-- Whether a negotiation completes if it was not stopped. -/
def finishes : NegotiationStage → Reply → Bool
  | .gathering _ _, .ok _ => true
  | _, _ => false

theorem resume_counts {stage : NegotiationStage} {reply : Reply} (h : finishes stage reply = false) :
    (c.resume n stage reply).coordinator.metrics.counts = c.metrics.counts := by
  cases stage with
  | connecting endpoint port =>
    cases reply with
    | ok text =>
      rcases c.connected_cases n endpoint port text with ⟨_, hr⟩ | ⟨fault, _, hr⟩ <;> simp [hr]
    | error => simp [resume]
  | gathering endpoint answer =>
    cases reply with
    | ok => cases h
    | error => simp [resume]
  | _ => cases reply <;> simp [resume]

theorem countRelease_counts (task : Task) (reply : Reply) :
    (c.countRelease task reply).metrics.counts = { c.metrics.counts with
      failed := c.metrics.counts.failed +
        (repliedEvents t (some task) (some reply)).countP Event.refused } := by
  unfold countRelease
  cases reply with
  | ok text => cases task.call? <;> simp [repliedEvents, Event.refused]
  | error fault =>
    cases hcall : task.call? with
    | none => simp [repliedEvents, Event.refused, hcall]
    | some call => cases call <;> simp [repliedEvents, Event.refused, hcall, EngineCall.released?,
        Metrics.countReleaseFailures, Metrics.counts, Metrics.negotiated, Metrics.counted]

section Calls
variable {call : Registry.Call}

theorem isCounted_of_stop {sessions : List SessionId} (h : call ∈ sessions.map Registry.Call.stop) :
    call.isCounted = false := by
  obtain ⟨_, _, rfl⟩ := List.mem_map.mp h
  rfl

/-- The only calls of a task that may count are those of a negotiation that comes to its end. -/
theorem isCounted_of_taskCalls {task : Task} {reply : Option Reply} {result : StepResult}
    (h : call ∈ taskCalls c task reply result) (hcounted : call.isCounted) :
    ∃ n endpoint answer text, task = .negotiation n (.gathering endpoint answer) ∧
      reply = some (.ok text) := by
  unfold taskCalls at h
  split at h
  · rename_i n stage reply
    split at h
    · rcases List.mem_append.mp h with hask | hremove
      · have hasked := Option.mem_toList.mp hask
        unfold NegotiationStage.asks at hasked
        split at hasked <;> cases hasked
        · cases hcounted
        · cases hcounted
        · cases hcounted
        · cases hcounted
        · exact ⟨_, _, _, _, rfl, rfl⟩
      · split at hremove
        · cases List.mem_singleton.mp hremove
          cases hcounted
        · cases hremove
    · cases h
  · split at h
    · rw [isCounted_of_stop h] at hcounted
      cases hcounted
    · cases h
  · cases h

end Calls

theorem submit_counts (s : SessionId) (candidate : Candidate) :
    (c.submit s candidate).2.metrics.counts = { c.metrics.counts with
      buffered := c.metrics.counts.buffered +
        if (Registry.Deed.mk c.registry (.submit s candidate)).puts then 1 else 0 } := by
  have hputs := Registry.puts_iff (r := c.registry) (.submit s candidate)
  rw [Registry.answer_submit] at hputs
  rcases c.registry.submit_cases s candidate with ⟨_, _, _, _, _, _, hs⟩ | ⟨_, hs⟩
  · simp [submit, hs, hputs]
  · simp [submit, hs, hputs, Metrics.countBuffered, Metrics.counts, Metrics.negotiated, Metrics.counted]

theorem serve_raises (q : Request) (after : Option Task) : (serve c t q).coordinator.metrics.counts =
    c.metrics.counts.raise (takeEvents c.registry t none none (requestCalls c q) after) := by
  have huncounted : (∀ call ∈ requestCalls c q, call.isCounted = false) →
      (serve c t q).coordinator.metrics.counts = c.metrics.counts →
      (serve c t q).coordinator.metrics.counts =
        c.metrics.counts.raise (takeEvents c.registry t none none (requestCalls c q) after) := by
    intro hcalls hsame
    rw [Counts.raise_of_uncounted _ hcalls, hsame]
    rfl
  cases q with
  | prepare s role offer =>
    refine huncounted ?_ ?_
    · simp only [requestCalls]
      split <;> simp [Registry.Call.isCounted]
    · rcases prepare_spec c s role offer with ⟨a, snapshot, c', hp, hmetrics⟩ | ⟨fault, hp⟩
      · simp only [serve, hp]
        rw [hmetrics]
      · simp only [serve, hp]
        exact c.metrics.counts_rejected role
  | stop s leaving =>
    exact huncounted (by simp [requestCalls, Registry.Call.isCounted])
      (c.stopTask_counts (c.stop_counts s) s leaving)
  | submit s candidate =>
    have hsubmit := c.submit_counts s candidate
    have hcoordinator : (serve c t (.submit s candidate)).coordinator = (c.submit s candidate).2 := by
      simp only [serve]
      generalize c.submit s candidate = step
      obtain ⟨_ | _, c'⟩ := step <;> rfl
    have hnone : Registry.completed (c.registry.log [.submit s candidate]) = [] := rfl
    have hputs : (c.registry.log [.submit s candidate]).countP Registry.Deed.puts =
        if (Registry.Deed.mk c.registry (.submit s candidate)).puts then 1 else 0 := List.countP_singleton
    rw [hcoordinator, hsubmit, Counts.raise_takeEvents, requestCalls, hnone, hputs]
    rfl
  | shutdown order =>
    exact huncounted (fun call hcall => isCounted_of_stop hcall) (c.shutdownFrom_counts t order)
  | requestMix => exact huncounted (by simp [requestCalls]) (c.mixRequested_counts _)
  | withdrawMix => exact huncounted (by simp [requestCalls]) (c.mixWithdrawn_counts _)

theorem stepTurn_raises (task : Task) (after : Option Task) :
    (c.stepTurn t task).coordinator.metrics.counts =
      c.metrics.counts.raise (takeEvents c.registry t (some task) none
        (taskCalls c task none (c.stepTurn t task)) after) := by
  rw [stepTurn_counts, Counts.raise_of_uncounted]
  · rfl
  · intro call hcall
    rw [Bool.eq_false_iff]
    intro hcounted
    obtain ⟨_, _, _, _, _, hreply⟩ := isCounted_of_taskCalls c hcall hcounted
    cases hreply

/-- A negotiation that comes to its end is counted if it makes its entry ready. -/
theorem complete_raises {endpoint : Endpoint} {answer text : String}
    (h : HasEntry c.registry n (.gathering endpoint answer))
    (hrole : ∀ e, c.registry.attempt? n.session n.attempt = some e → e.role = n.role)
    (after : Option Task) :
    (c.complete n answer).coordinator.metrics.counts =
      c.metrics.counts.raise (takeEvents c.registry t (some (.negotiation n (.gathering endpoint answer)))
        (some (.ok text)) (taskCalls c (.negotiation n (.gathering endpoint answer)) (some (.ok text))
          (c.complete n answer)) after) := by
  obtain ⟨e, he, hpending, _⟩ := h
  generalize hcalls : taskCalls c (.negotiation n (.gathering endpoint answer)) (some (.ok text))
    (c.complete n answer) = calls
  obtain ⟨rest, rfl, hrest⟩ : ∃ rest, calls = .finish n.session n.attempt :: rest ∧
      ∀ call ∈ rest, call.isCounted = false := by
    rw [taskCalls_of_live _ rfl] at hcalls
    refine ⟨_, hcalls.symm, ?_⟩
    split <;> simp [Registry.Call.isCounted]
  obtain ⟨hcompleted, hputs⟩ :=
    Registry.counts_nothing (r := c.registry.next (.finish n.session n.attempt)) hrest
  have hfirst : (Registry.Deed.mk c.registry (.finish n.session n.attempt)).puts = false := by
    rw [Bool.eq_false_iff]
    intro hputs
    obtain ⟨⟨_, _, hcall⟩, _⟩ := (Registry.puts_iff _).mp hputs
    cases hcall
  have hcompleted' : Registry.completed (c.registry.log (.finish n.session n.attempt :: rest)) =
      (Registry.Deed.mk c.registry (.finish n.session n.attempt)).completed := by
    refine Eq.trans ?_ (List.append_nil _)
    exact congrArg (_ ++ ·) hcompleted
  have hputs' : (c.registry.log (.finish n.session n.attempt :: rest)).countP Registry.Deed.puts = 0 := by
    simp [Registry.log, hfirst, hputs]
  rw [complete_counts, Counts.raise_takeEvents, hcompleted', hputs',
    Registry.completed_finish he hpending]
  split
  · have hready : ∀ role, tally role ([{ e with phase := .ready }] : List Entry) =
        if role = n.role then 1 else 0 := by
      intro role
      refine (tally_singleton role _).trans ?_
      simp only [Entry.counts, true_and, hrole e he, eq_comm]
    simp only [hready]
    rfl
  · rfl

/-- Whatever else goes on after a reply counts nothing beyond a release that was refused. -/
theorem stepReply_counts {task : Task} {reply : Reply}
    (h : ∀ n stage, task = .negotiation n stage → finishes stage reply = false) :
    (c.stepReply t task reply).coordinator.metrics.counts =
      (c.countRelease task reply).metrics.counts := by
  unfold stepReply
  generalize c.countRelease task reply = c'
  dsimp only
  split
  · exact c'.resume_counts _ (h _ _ rfl)
  · exact c'.stopTask_counts (c'.release_counts _ _) _ _
  · rfl
  · rename_i d left
    have hreleased := c'.release_counts d.entry d.rest
    generalize c'.release d.entry d.rest = released at hreleased
    obtain ⟨d' | _, c''⟩ := released
    · exact hreleased
    · exact (c''.shutdownFrom_counts t left).trans hreleased
  · exact c'.shutdownWithdrawn_counts _
  · exact c'.mixRequested_counts _
  · exact c'.mixWithdrawn_counts _

theorem stepReply_raises {task : Task} (reply : Reply)
    (hentry : ∀ n stage, task = .negotiation n stage → stage.isLive → HasEntry c.registry n stage)
    (hrole : ∀ n stage, task = .negotiation n stage →
      ∀ e, c.registry.attempt? n.session n.attempt = some e → e.role = n.role) (after : Option Task) :
    (c.stepReply t task reply).coordinator.metrics.counts =
      c.metrics.counts.raise (takeEvents c.registry t (some task) (some reply)
        (taskCalls c task (some reply) (c.stepReply t task reply)) after) := by
  by_cases hends : ∃ n endpoint answer text, task = .negotiation n (.gathering endpoint answer) ∧
      reply = .ok text
  · obtain ⟨n, endpoint, answer, text, rfl, rfl⟩ := hends
    exact c.complete_raises t n (hentry n _ rfl rfl) (hrole n _ rfl) after
  · have hno : ∀ n stage, task = .negotiation n stage → finishes stage reply = false := by
      rintro n stage rfl
      cases stage with
      | gathering endpoint answer =>
        cases reply with
        | ok text => exact (hends ⟨_, _, _, _, rfl, rfl⟩).elim
        | error => rfl
      | _ => rfl
    have hcalls : ∀ call ∈ taskCalls c task (some reply) (c.stepReply t task reply),
        call.isCounted = false := by
      intro call hcall
      rw [Bool.eq_false_iff]
      intro hcounted
      obtain ⟨n, endpoint, answer, text, htask, hreply⟩ := isCounted_of_taskCalls c hcall hcounted
      exact hends ⟨n, endpoint, answer, text, htask, Option.some.inj hreply⟩
    rw [Counts.raise_of_uncounted _ hcalls, stepReply_counts c t hno]
    exact c.countRelease_counts t task reply

end Coordinator

namespace Broadcast

/-! ## Runs -/

theorem Episode.Occurs.counts {x : Episode} (hx : x.Occurs) (h : x.before.Consistent)
    (hcast : x.before.Cast) : x.after.coordinator.metrics.counts =
      x.before.coordinator.metrics.counts.raise (takeEvents x.before.coordinator.registry x.task x.was
        x.action.reply? x.calls x.left) := by
  cases hx with
  | request => exact Coordinator.serve_raises _ _ _ _
  | turn => exact Coordinator.stepTurn_raises _ _ _ _
  | @reply b t task call reply ht hcall =>
    refine Coordinator.stepReply_raises _ _ _ ?_ ?_ _
    · rintro n stage rfl hlive
      exact h.hasEntry t n stage ⟨ht, hlive⟩
    · rintro n stage rfl e he
      exact hcast.role_eq h.wellFormed ht he

/-- The counters stand at what the log of a run shows. -/
theorem counts_eq (actions : List Action) : (run {} actions).coordinator.metrics.counts =
    ({} : Metrics).counts.raise (run {} actions).log := by
  refine later_induction
    (P := fun _ b => b.coordinator.metrics.counts = ({} : Metrics).counts.raise b.log) [] rfl ?_
  rintro _ x hcounts ⟨earlier, hbefore⟩ hx _
  rw [hx.counts (hbefore ▸ consistent earlier) (hbefore ▸ cast earlier), hcounts]
  refine Eq.trans ?_ (congrArg (({} : Metrics).counts.raise ·) (log_take ..).symm)
  exact (Counts.raise_append _ _ _).symm

end Broadcast

end Rostrum
