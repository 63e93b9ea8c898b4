import Mathlib
import Rostrum.Proofs.Broadcast.DeferredStop
import Rostrum.Proofs.Broadcast.Outcome
import Rostrum.Proofs.Registry.Path

/-!
# All tasks come to their end

A request brings in work, and every turn and every reply uses some of it up. So a broadcast takes no more
steps than its requests have paid for, whatever the engine replies, and one that is asked for nothing more
comes to rest. At rest no task is left: a task that waits for the lock on the mix waits for one that can
take a step.
-/

namespace Rostrum

/-! ## Sums over tables -/

namespace Table
variable {κ α : Type} [DecidableEq κ] (f : α → Nat)

/-- What the values of a table weigh together. -/
def weight (t : Table κ α) : Nat := (t.entries.map fun e => f e.2).sum

theorem sum_store (k : κ) (v : α) (es : List (κ × α)) :
    ((store k v es).map fun e => f e.2).sum + (find k es).elim 0 f =
      (es.map fun e => f e.2).sum + f v := by
  induction es with
  | nil => simp [store, find]
  | cons e rest ih =>
    obtain ⟨k', v'⟩ := e
    by_cases h : k' = k
    · simp only [store, find, if_pos h, List.map_cons, List.sum_cons, Option.elim_some]
      omega
    · simp only [store, find, if_neg h, List.map_cons, List.sum_cons]
      omega

theorem sum_filter_le (k : κ) (es : List (κ × α)) :
    ((es.filter fun e => e.1 ≠ k).map fun e => f e.2).sum + (find k es).elim 0 f ≤
      (es.map fun e => f e.2).sum := by
  induction es with
  | nil => simp [find]
  | cons e rest ih =>
    obtain ⟨k', v'⟩ := e
    by_cases h : k' = k
    · rw [List.filter_cons_of_neg (by simp [h])]
      simp only [find, if_pos h, List.map_cons, List.sum_cons, Option.elim_some]
      omega
    · rw [List.filter_cons_of_pos (by simp [h])]
      simp only [find, if_neg h, List.map_cons, List.sum_cons]
      omega

theorem weight_put (t : Table κ α) (k : κ) (v : α) :
    (t.put k v).weight f + (t.get? k).elim 0 f = t.weight f + f v :=
  sum_store f k v t.entries

theorem weight_erase_le (t : Table κ α) (k : κ) :
    (t.erase k).weight f + (t.get? k).elim 0 f ≤ t.weight f :=
  sum_filter_le f k t.entries

end Table

namespace CandidateBuffer
variable {b b' : CandidateBuffer} {s : SessionId} {c : Candidate}

/-- How many candidates wait in all queues together. -/
def total (b : CandidateBuffer) : Nat := b.queues.weight List.length

theorem length_waiting (b : CandidateBuffer) (s : SessionId) :
    (b.queues.get? s).elim 0 List.length = (b.waiting s).length := by
  unfold waiting
  cases b.queues.get? s <;> rfl

theorem total_push : (b.push s c).total = b.total + 1 := by
  have hput := b.queues.weight_put List.length s (b.waiting s ++ [c])
  rw [length_waiting, List.length_append, List.length_singleton] at hput
  unfold total push
  dsimp only
  omega

theorem total_pop (h : b.pop s = some (c, b')) : b'.total + 1 = b.total := by
  obtain ⟨rest, hwaits, rfl⟩ := pop_eq_some_iff.mp h
  have hput := b.queues.weight_put List.length s rest
  rw [length_waiting, hwaits, List.length_cons] at hput
  unfold total
  dsimp only
  omega

theorem total_clear_le (b : CandidateBuffer) (s : SessionId) : (b.clear s).total ≤ b.total := by
  have herase := b.queues.weight_erase_le List.length s
  unfold total clear
  dsimp only
  omega

end CandidateBuffer

namespace Registry

/-- Only a submission lets more candidates wait. -/
theorem total_next_le (r : Registry) (call : Call) (h : ∀ s c, call ≠ .submit s c) :
    (r.next call).buffer.total ≤ r.buffer.total := by
  have ho := r.perform_outcome call
  generalize r.answer call = ans at ho
  generalize r.next call = r' at ho
  cases ho with
  | applied | buffered => exact absurd rfl (h _ _)
  | popped _ hpop =>
    have hone := CandidateBuffer.total_pop hpop
    dsimp only
    omega
  | drained | marked | tornDown | removedCurrent =>
    simpa [clearBuffer] using r.buffer.total_clear_le _
  | stoppedNothing => exact r.buffer.total_clear_le _
  | _ => simp

end Registry

/-! ## The work that is left -/

def MixRequest.work : MixRequest → Nat
  | .waiting => 4
  | .creatingPipeline => 3
  | .creatingMixer _ => 2
  | .undoing _ _ => 1

def MixWithdrawal.work : MixWithdrawal → Nat
  | .waiting => 3
  | .releasingMixer _ => 2
  | .releasingPipeline _ => 1

def Teardown.work (d : Teardown) : Nat := d.rest.length + 1

/-- How many steps a negotiation has left at most, if it finds no candidates to apply. -/
def NegotiationStage.work : NegotiationStage → Nat
  | .prepared => 13
  | .obtainingMix stage => 8 + stage.work
  | .creatingEndpoint _ => 8
  | .creatingPort _ _ => 7
  | .connecting _ _ => 6
  | .applying _ _ => 6
  | .subscribing _ => 5
  | .offering _ => 4
  | .gathering _ _ => 3
  | .releasing _ _ _ rest => rest.length + 1

theorem NegotiationStage.three_le_work {stage : NegotiationStage} (h : stage.isLive) : 3 ≤ stage.work := by
  cases stage with
  | releasing => cases h
  | obtainingMix => exact (by decide : 3 ≤ 8).trans (Nat.le_add_right _ _)
  | _ => simp [work]

/-- A shutdown may have to release two objects for each session that is left. -/
def ShutdownStage.work : ShutdownStage → Nat
  | .stopping d left => d.work + (3 * left.length + 3)
  | .withdrawing stage => stage.work

def Task.work : Task → Nat
  | .negotiation _ stage => stage.work
  | .stop _ _ d => d.work
  | .apply _ _ _ => 1
  | .shutdown stage => stage.work
  | .mixRequest stage => stage.work
  | .mixWithdrawal stage => stage.work

/-- The work that is left when a step has come to its end. -/
def Progress.work {σ α : Type} (f : σ → Nat) (p : Progress σ α) : Nat := p.ongoing?.elim 0 f

namespace Coordinator

/-- Every candidate that waits may cost a negotiation another step. -/
def buffered (c : Coordinator) : Nat := c.registry.buffer.total

end Coordinator

/-- What a step leaves to be done: the rest of its task and the candidates that wait. -/
def StepResult.work (result : StepResult) : Nat :=
  result.task.work Task.work + result.coordinator.buffered

/-! ## What the steps of a task leave to be done -/

namespace MixCell
variable (m : MixCell)

theorem enterRequest_work : m.enterRequest.1.work MixRequest.work ≤ 3 := by
  unfold enterRequest
  split <;> simp [Progress.work, Progress.ongoing?, MixRequest.work]

theorem request_work (t : TaskId) : (m.request t).1.work MixRequest.work ≤ 4 := by
  unfold request
  split
  · exact (enterRequest_work _).trans (by omega)
  · exact Nat.le_refl 4

theorem resumeRequest_work {stage : MixRequest} (h : (stage.call? (L := SessionId)).isSome) (reply : Reply) :
    (m.resumeRequest stage reply).1.work MixRequest.work + 1 ≤ stage.work := by
  cases stage with
  | waiting => cases h
  | undoing => exact Nat.le_refl 1
  | creatingPipeline | creatingMixer =>
    cases reply <;> simp [resumeRequest, Progress.work, Progress.ongoing?, MixRequest.work]

theorem enterWithdrawal_work : m.enterWithdrawal.1.work MixWithdrawal.work ≤ 2 := by
  unfold enterWithdrawal
  split <;> simp [Progress.work, Progress.ongoing?, MixWithdrawal.work]

theorem withdraw_work (t : TaskId) : (m.withdraw t).1.work MixWithdrawal.work ≤ 3 := by
  unfold withdraw
  split
  · exact (enterWithdrawal_work _).trans (by omega)
  · exact Nat.le_refl 3

theorem resumeWithdrawal_work {stage : MixWithdrawal} (h : (stage.call? (L := SessionId)).isSome) :
    (m.resumeWithdrawal stage).1.work MixWithdrawal.work + 1 ≤ stage.work := by
  cases stage with
  | waiting => cases h
  | releasingMixer => exact Nat.le_refl 2
  | releasingPipeline => exact Nat.le_refl 1

end MixCell

namespace Coordinator
open Broadcast

variable (c : Coordinator) (n : Negotiation)

theorem advance_work (stage : NegotiationStage) : (c.advance n stage).work = stage.work + c.buffered := rfl

theorem giveUp_work (fault : NegotiationFault) (e : Entry) (objects : List ObjectId) :
    (c.giveUp n fault e objects).work = objects.length + c.buffered := by
  unfold StepResult.work Progress.work buffered
  rw [giveUp_registry, giveUp_ongoing?]
  cases objects <;> rfl

theorem abort_work (fault : NegotiationFault) : (c.abort n fault).work ≤ 2 + c.buffered := by
  have hbuffer := c.registry.total_next_le (.remove n.session n.attempt) (by simp)
  rw [Registry.next_remove] at hbuffer
  unfold abort
  cases h : c.registry.remove n.session n.attempt with
  | mk removed registry =>
    rw [h] at hbuffer
    cases removed with
    | none => exact Nat.add_le_add (Nat.zero_le 2) hbuffer
    | some e =>
      dsimp only
      rw [giveUp_work]
      exact Nat.add_le_add e.objects_length hbuffer

theorem advanceChecked_work {stage : NegotiationStage} (h : 2 ≤ stage.work) :
    (c.advanceChecked n stage).work ≤ stage.work + c.buffered := by
  unfold advanceChecked
  split
  · exact (c.advance_work n stage).le
  · exact (c.abort_work n _).trans (Nat.add_le_add_right h _)

theorem afterMix_work (step : MixCell.RequestStep) :
    (c.afterMix n step).work ≤ 8 + step.1.work MixRequest.work + c.buffered := by
  obtain ⟨progress, mix⟩ := step
  cases progress with
  | ongoing => exact Nat.le_refl _
  | done result =>
    cases result with
    | ok shared => exact advanceChecked_work _ n (Nat.le_add_left 2 6)
    | error fault =>
      refine (abort_work _ n _).trans ?_
      exact Nat.add_le_add_right (by omega) _

theorem start_work (t : TaskId) : (c.start t n).work ≤ 12 + c.buffered := by
  unfold start
  cases n.snapshot with
  | some shared =>
    have hchecked : (c.advanceChecked n (.creatingEndpoint shared)).work ≤ 8 + c.buffered :=
      c.advanceChecked_work n (Nat.le_add_left 2 6)
    exact hchecked.trans (by omega)
  | none =>
    have hmix := c.mix.request_work t
    have hafter := c.afterMix_work n (c.mix.request t)
    exact hafter.trans (by omega)

/-- Applying a candidate uses up one that waited. -/
theorem drain_work (endpoint : Endpoint) : (c.drain n endpoint).work ≤ 5 + c.buffered := by
  unfold drain
  rcases c.registry.nextCandidate_cases n.session n.attempt with
    ⟨_, hr⟩ | ⟨_, candidate, buffer, _, hpop, hr⟩ | ⟨_, _, _, hr⟩
  · rw [hr]
    exact (c.abort_work n _).trans (by omega)
  · rw [hr]
    have hone := CandidateBuffer.total_pop hpop
    dsimp only
    rw [advance_work]
    simp only [NegotiationStage.work, buffered]
    omega
  · rw [hr]
    dsimp only
    rw [advance_work]
    refine Nat.add_le_add_left ?_ 5
    simpa [buffered, Registry.clearBuffer] using c.registry.buffer.total_clear_le n.session

/-- To note an object on an entry changes nothing in what waits. -/
theorem buffered_of_note {f : Entry → Entry} {result : Except NegotiationFault Unit}
    {registry : Registry} (h : c.registry.note n.session n.attempt f = (result, registry)) :
    ({ c with registry := registry } : Coordinator).buffered = c.buffered := by
  rcases c.registry.note_cases n.session n.attempt f with ⟨_, _, hr⟩ | ⟨_, hr⟩
  · cases h.symm.trans hr
    exact congrArg CandidateBuffer.total (Registry.modifyAttempt_buffer _ _ _ _)
  · cases h.symm.trans hr
    rfl

theorem endpointMade_work (mix : SharedMix) (endpoint : Endpoint) :
    (c.endpointMade n mix endpoint).work ≤ 7 + c.buffered := by
  unfold endpointMade
  cases hset : c.registry.setEndpoint n.session n.attempt endpoint with
  | mk result registry =>
    have hsame := c.buffered_of_note n hset
    rw [← hsame]
    cases result with
    | error fault => exact (abort_work _ n fault).trans (Nat.add_le_add_right (by omega) _)
    | ok =>
      dsimp only
      split
      · exact (advance_work _ n _).le
      · exact (abort_work _ n _).trans (Nat.add_le_add_right (by omega) _)

theorem portMade_work (endpoint : Endpoint) (port : MixerPort) :
    (c.portMade n endpoint port).work ≤ 6 + c.buffered := by
  unfold portMade
  cases hset : c.registry.setPort n.session n.attempt port with
  | mk result registry =>
    have hsame := c.buffered_of_note n hset
    rw [← hsame]
    cases result with
    | error fault => exact (abort_work _ n fault).trans (Nat.add_le_add_right (by omega) _)
    | ok => exact (advance_work _ n _).le

theorem answered_work (endpoint : Endpoint) (answer : String) :
    (c.answered n endpoint answer).work ≤ 3 + c.buffered := by
  unfold answered
  split
  · exact Nat.le_refl _
  · exact (c.abort_work n _).trans (Nat.add_le_add_right (by omega) _)

theorem complete_work (answer : String) : (c.complete n answer).work ≤ 2 + c.buffered := by
  unfold complete
  rcases c.registry.finish_cases n.session n.attempt with ⟨_, hr⟩ | ⟨_, _, hr⟩
  · rw [hr]
    exact c.abort_work n _
  · rw [hr]
    refine Nat.add_le_add (Nat.zero_le 2) (Nat.le_of_eq ?_)
    exact congrArg CandidateBuffer.total (Registry.modifyAttempt_buffer _ _ _ _)

theorem resume_work {stage : NegotiationStage} (hcall : (stage.call? n).isSome) (reply : Reply) :
    (c.resume n stage reply).work + 1 ≤ stage.work + c.buffered := by
  have hspends : ∀ {result : StepResult} {k : Nat}, result.work ≤ k + c.buffered →
      k + 1 ≤ stage.work → result.work + 1 ≤ stage.work + c.buffered := by
    intro result k hwork hless
    omega
  -- whatever has been built, to give up costs less than to go on
  have habort : stage.isLive → ∀ fault, (c.abort n fault).work + 1 ≤ stage.work + c.buffered :=
    fun hlive fault => hspends (c.abort_work n fault) (NegotiationStage.three_le_work hlive)
  cases stage with
  | prepared => cases hcall
  | releasing fault e o rest => exact hspends (c.giveUp_work n fault e rest).le (Nat.le_refl _)
  | obtainingMix stage =>
    have hmix := c.mix.resumeRequest_work hcall reply
    exact hspends (c.afterMix_work n _) (Nat.add_le_add_left hmix 8)
  | creatingEndpoint mix =>
    cases reply with
    | ok id => exact hspends (c.endpointMade_work n mix _) (Nat.le_refl 8)
    | error => exact habort rfl _
  | creatingPort mix endpoint =>
    cases reply with
    | ok id => exact hspends (c.portMade_work n endpoint _) (Nat.le_refl 7)
    | error => exact habort rfl _
  | connecting endpoint port =>
    cases reply with
    | ok text =>
      rcases c.connected_cases n endpoint port text with ⟨_, hresume⟩ | ⟨fault, _, hresume⟩
      · rw [hresume]
        exact hspends (c.drain_work n endpoint) (Nat.le_refl 6)
      · rw [hresume]
        exact habort rfl fault
    | error => exact habort rfl _
  | applying endpoint candidate =>
    cases reply with
    | ok => exact hspends (c.drain_work n endpoint) (Nat.le_refl 6)
    | error => exact habort rfl _
  | subscribing endpoint =>
    cases reply with
    | ok => exact hspends (c.advanceChecked_work n (Nat.le_add_left 2 2)) (Nat.le_refl 5)
    | error => exact habort rfl _
  | offering endpoint =>
    cases reply with
    | ok answer => exact hspends (c.answered_work n endpoint answer) (Nat.le_refl 4)
    | error => exact habort rfl _
  | gathering endpoint answer =>
    cases reply with
    | ok => exact hspends (c.complete_work n answer) (Nat.le_refl 3)
    | error => exact habort rfl _

/-! ## What stops and shutdowns leave to be done -/

theorem release_work (e : Entry) (objects : List ObjectId) :
    (c.release e objects).1.work Teardown.work = objects.length ∧
      (c.release e objects).2.buffered = c.buffered := by
  cases objects with
  | nil => exact ⟨rfl, congrArg (fun r => r.buffer.total) (c.settle_registry e)⟩
  | cons => exact ⟨rfl, rfl⟩

theorem stop_work (s : SessionId) :
    (c.stop s).1.work Teardown.work + (c.stop s).2.buffered ≤ 2 + c.buffered := by
  have hbuffer := c.registry.total_next_le (.stop s) (by simp)
  rw [← c.stop_registry s] at hbuffer
  refine Nat.add_le_add ?_ hbuffer
  unfold stop
  cases c.registry.stop s with
  | mk action registry =>
    cases action with
    | marked | nothing => exact Nat.zero_le 2
    | teardown e =>
      dsimp only
      rw [(release_work _ e e.objects).1]
      exact e.objects_length

theorem stopTask_work (s : SessionId) (leaving : Bool) (step : Progress Teardown Unit × Coordinator) :
    (stopTask s leaving step).work = step.1.work Teardown.work + step.2.buffered := by
  obtain ⟨progress, c'⟩ := step
  cases progress <;> rfl

theorem shutdownWithdrawn_work (step : MixCell.WithdrawalStep) :
    (c.shutdownWithdrawn step).work = step.1.work MixWithdrawal.work + c.buffered := by
  obtain ⟨progress, mix⟩ := step
  cases progress <;> rfl

/-- Each session that is left may have two objects to release, which a step of its own goes with. -/
theorem shutdownFrom_work (t : TaskId) (order : List SessionId) :
    (c.shutdownFrom t order).work ≤ 3 * order.length + 3 + c.buffered := by
  induction order generalizing c with
  | nil =>
    have hmix := c.mix.withdraw_work t
    have hwithdrawn : (c.shutdownMix t).work = _ := c.shutdownWithdrawn_work (c.mix.withdraw t)
    exact hwithdrawn.le.trans (Nat.add_le_add_right hmix _)
  | cons s left ih =>
    have hstop := c.stop_work s
    rw [List.length_cons]
    unfold shutdownFrom
    cases h : c.stop s with
    | mk progress c' =>
      rw [h] at hstop
      cases progress with
      | ongoing d =>
        change d.work + (3 * left.length + 3) + c'.buffered ≤ _
        change d.work + c'.buffered ≤ _ at hstop
        omega
      | done =>
        have hleft := ih c'
        change 0 + c'.buffered ≤ _ at hstop
        dsimp only
        omega

/-! ## What the steps of all tasks leave to be done -/

theorem mixRequested_work (step : MixCell.RequestStep) :
    (c.mixRequested step).work = step.1.work MixRequest.work + c.buffered := by
  obtain ⟨progress, mix⟩ := step
  cases progress <;> rfl

theorem mixWithdrawn_work (step : MixCell.WithdrawalStep) :
    (c.mixWithdrawn step).work = step.1.work MixWithdrawal.work + c.buffered := by
  obtain ⟨progress, mix⟩ := step
  cases progress <;> rfl

theorem stepTurn_work {t : TaskId} {task : Task} (hturn : c.hasTurn t task) :
    (c.stepTurn t task).work + 1 ≤ task.work + c.buffered := by
  have hrequest := c.mix.enterRequest_work
  have hwithdrawal := c.mix.enterWithdrawal_work
  -- a task that waits for the engine has no turn, which leaves the first step and the wait for the lock
  have hcall := call?_of_hasTurn hturn
  cases task with
  | negotiation n stage =>
    cases stage with
    | prepared =>
      have hstart := c.start_work n t
      change (c.start t n).work + 1 ≤ 13 + c.buffered
      omega
    | obtainingMix stage =>
      cases stage with
      | waiting =>
        have hafter := c.afterMix_work n c.mix.enterRequest
        change (c.afterMix n c.mix.enterRequest).work + 1 ≤ 12 + c.buffered
        omega
      | _ => cases hcall
    | connecting => cases hrole : n.role <;> simp [Task.call?, NegotiationStage.call?, hrole] at hcall
    | _ => cases hcall
  | stop | apply => cases hcall
  | shutdown stage =>
    cases stage with
    | stopping => cases hcall
    | withdrawing stage =>
      cases stage with
      | waiting =>
        change (c.shutdownWithdrawn c.mix.enterWithdrawal).work + 1 ≤ 3 + c.buffered
        rw [shutdownWithdrawn_work]
        omega
      | _ => cases hcall
  | mixRequest stage =>
    cases stage with
    | waiting =>
      change (c.mixRequested c.mix.enterRequest).work + 1 ≤ 4 + c.buffered
      rw [mixRequested_work]
      omega
    | _ => cases hcall
  | mixWithdrawal stage =>
    cases stage with
    | waiting =>
      change (c.mixWithdrawn c.mix.enterWithdrawal).work + 1 ≤ 3 + c.buffered
      rw [mixWithdrawn_work]
      omega
    | _ => cases hcall

theorem resumeShutdown_work (t : TaskId) (d : Teardown) (left : List SessionId) :
    (match c.release d.entry d.rest with
      | (.ongoing d, c) => (⟨c, [], .ongoing (.shutdown (.stopping d left))⟩ : StepResult)
      | (.done (), c) => c.shutdownFrom t left).work + 1 ≤
    (ShutdownStage.stopping d left).work + c.buffered := by
  obtain ⟨hwork, hsame⟩ := c.release_work d.entry d.rest
  change _ ≤ d.rest.length + 1 + (3 * left.length + 3) + c.buffered
  cases hstep : c.release d.entry d.rest with
  | mk progress c' =>
    rw [hstep] at hwork hsame
    dsimp only at hsame
    cases progress with
    | ongoing d' =>
      change d'.work = _ at hwork
      change d'.work + (3 * left.length + 3) + c'.buffered + 1 ≤ _
      omega
    | done =>
      have hleft := c'.shutdownFrom_work t left
      dsimp only
      omega

theorem stepReply_work (t : TaskId) {task : Task} (hcall : task.call?.isSome) (reply : Reply) :
    (c.stepReply t task reply).work + 1 ≤ task.work + c.buffered := by
  have hsame : (c.countRelease task reply).buffered = c.buffered :=
    congrArg (fun r => r.buffer.total) (c.countRelease_registry task reply)
  rw [← hsame]
  unfold stepReply
  generalize c.countRelease task reply = c
  dsimp only
  cases task with
  | negotiation n stage => exact c.resume_work n hcall reply
  | stop s leaving d =>
    obtain ⟨hwork, hbuffered⟩ := c.release_work d.entry d.rest
    dsimp only
    rw [stopTask_work, hwork, hbuffered, Nat.add_right_comm]
    exact Nat.le_refl _
  | apply =>
    change 0 + c.buffered + 1 ≤ 1 + c.buffered
    omega
  | shutdown stage =>
    cases stage with
    | stopping d left => exact c.resumeShutdown_work t d left
    | withdrawing stage =>
      have hmix := c.mix.resumeWithdrawal_work hcall
      dsimp only
      rw [shutdownWithdrawn_work, Nat.add_right_comm]
      exact Nat.add_le_add_right hmix _
  | mixRequest stage =>
    have hmix := c.mix.resumeRequest_work hcall reply
    dsimp only
    rw [mixRequested_work, Nat.add_right_comm]
    exact Nat.add_le_add_right hmix _
  | mixWithdrawal stage =>
    have hmix := c.mix.resumeWithdrawal_work hcall
    dsimp only
    rw [mixWithdrawn_work, Nat.add_right_comm]
    exact Nat.add_le_add_right hmix _

end Coordinator

namespace Broadcast

/-- How much work a request brings in at most. -/
def Request.cost : Request → Nat
  | .prepare _ _ _ => 13
  | .stop _ _ => 2
  | .submit _ _ => 1
  | .shutdown order => 3 * order.length + 3
  | .requestMix => 4
  | .withdrawMix => 3

def Action.cost : Action → Nat
  | .request q => q.cost
  | _ => 0

theorem serve_work (c : Coordinator) (t : TaskId) (q : Request) :
    (serve c t q).work ≤ q.cost + c.buffered := by
  cases q with
  | prepare s role offer =>
    have hreg := (prepare_follows c t s role offer).registry
    refine Nat.add_le_add ?_ ?_
    · rcases prepare_spec c s role offer with ⟨_, _, _, hr, _⟩ | ⟨_, hr⟩
      · simp only [serve, hr]
        exact Nat.le_refl 13
      · simp only [serve, hr]
        exact Nat.zero_le 13
    · unfold Coordinator.buffered
      rw [hreg]
      cases hsnapshot : c.snapshot s role with
      | ok =>
        simp only [requestCalls, hsnapshot]
        exact c.registry.total_next_le (.register s role) (by simp)
      | error =>
        simp only [requestCalls, hsnapshot]
        exact Nat.le_refl _
  | stop s leaving =>
    exact (Coordinator.stopTask_work _ _ _).le.trans (c.stop_work s)
  | submit s candidate =>
    rcases c.registry.submit_cases s candidate with ⟨_, _, _, _, _, _, hs⟩ | ⟨_, hs⟩
    · simp only [serve, Coordinator.submit, hs]
      exact Nat.le_refl _
    · simp only [serve, Coordinator.submit, hs]
      change 0 + (c.registry.buffer.push s candidate).total ≤ 1 + c.registry.buffer.total
      rw [CandidateBuffer.total_push]
      omega
  | shutdown order => exact c.shutdownFrom_work t order
  | requestMix =>
    exact (c.mixRequested_work _).le.trans (Nat.add_le_add_right (c.mix.request_work t) _)
  | withdrawMix =>
    exact (c.mixWithdrawn_work _).le.trans (Nat.add_le_add_right (c.mix.withdraw_work t) _)

/-! ## Runs -/

/-- The work that is left in all tasks, with the candidates that wait. -/
def work (b : Broadcast) : Nat := b.tasks.weight Task.work + b.coordinator.buffered

/-- The step of a task takes the work it had and leaves the work of its result. -/
theorem Episode.Occurs.work_after {x : Episode} (hx : x.Occurs) (h : x.before.Consistent) :
    x.after.work + x.was.elim 0 Task.work ≤ x.before.tasks.weight Task.work + x.result.work := by
  have htask := (hx.taken h).task
  have hput := x.before.tasks.weight_put Task.work x.task
  have herase := x.before.tasks.weight_erase_le Task.work x.task
  rw [htask] at hput herase
  unfold work StepResult.work Progress.work Episode.after take
  dsimp only
  cases x.result.task.ongoing? with
  | none =>
    dsimp only [Option.elim_none]
    omega
  | some task =>
    have hput := hput task
    dsimp only [Option.elim_some]
    omega

/-- A request brings in no more work than it costs, and every step of a task uses some up. -/
theorem Episode.Occurs.work_le {x : Episode} (hx : x.Occurs) (h : x.before.Consistent) :
    x.after.work + (if x.was.isSome then 1 else 0) ≤ x.before.work + x.action.cost := by
  have hafter := hx.work_after h
  generalize x.after.work = left at hafter
  unfold work
  cases hx with
  | @request b q _ =>
    have hserve := serve_work b.coordinator ⟨b.nextTask⟩ q
    dsimp only [Option.elim_none, Option.isSome_none, Action.cost] at hafter ⊢
    simp only [Bool.false_eq_true, if_false]
    omega
  | turn ht hturn =>
    have hturn := Coordinator.stepTurn_work _ hturn
    dsimp only [Option.elim_some, Option.isSome_some, Action.cost] at hafter ⊢
    simp only [if_true]
    omega
  | @reply b t task call reply ht hcall _ =>
    have hreply := b.coordinator.stepReply_work t (Option.isSome_of_eq_some hcall) reply
    dsimp only [Option.elim_some, Option.isSome_some, Action.cost] at hafter ⊢
    simp only [if_true]
    omega

theorem Episode.Occurs.work_lt {x : Episode} (hx : x.Occurs) (h : x.before.Consistent)
    (hno : ∀ q, x.action ≠ .request q) : x.after.work < x.before.work := by
  have hle := hx.work_le h
  cases hx with
  | request => exact absurd rfl (hno _)
  | turn | reply => exact hle

/-- What a run takes in steps, and what work is left, was there at the start or was paid for. -/
theorem work_run (start more : List Action) :
    ((run {} start).history more).countP (fun x => x.was.isSome) + ((run {} start).run more).work ≤
      (run {} start).work + (more.map Action.cost).sum := by
  induction more using List.reverseRecOn with
  | nil => exact Nat.le_of_eq (Nat.zero_add _)
  | append_singleton more a ih =>
    rw [run_append, history_append, history_singleton, List.countP_append, List.map_append,
      List.sum_append, List.map_singleton, List.sum_singleton]
    cases hepisode : ((run {} start).run more).episode? a with
    | none =>
      rw [step_of_no_episode hepisode]
      simp only [Option.toList_none, List.countP_nil]
      omega
    | some x =>
      obtain ⟨_, hoccurs, hbefore, rfl⟩ := step?_of_episode? hepisode
      have h : x.before.Consistent := by
        rw [hbefore, ← run_append_run]
        exact consistent _
      have hstep := hoccurs.work_le h
      rw [hbefore] at hstep
      rw [step_of_episode? hepisode, Option.toList_some, List.countP_singleton]
      omega

/-! ## Rest -/

/-- Nothing can go on until something is asked for. -/
def AtRest (b : Broadcast) : Prop := ∀ t, ¬ b.CanGoOn t

/-- At rest no task is left. -/
theorem Locked.idle {b : Broadcast} (hl : b.Locked) (hrest : b.AtRest) (t : TaskId) :
    b.tasks.get? t = none := by
  cases ht : b.tasks.get? t with
  | none => rfl
  | some task =>
    rcases hl.canGoOn ht with hgoes | ⟨t', _, hgoes⟩
    · exact absurd hgoes (hrest t)
    · exact absurd hgoes (hrest t')

/-- A negotiation stays under way until it has ended. -/
theorem negotiation_run (start more : List Action) {t : TaskId} {n : Negotiation}
    {stage : NegotiationStage} (ht : (run {} start).tasks.get? t = some (.negotiation n stage)) :
    (∃ stage', ((run {} start).run more).tasks.get? t = some (.negotiation n stage')) ∨
      ∃ x ∈ (run {} start).history more, x.task = t ∧
        ∃ stage' ending, x.was = some (.negotiation n stage') ∧ x.result.task = .done ending := by
  refine later_induction start (P := fun past b =>
    (∃ stage', b.tasks.get? t = some (.negotiation n stage')) ∨
      ∃ x ∈ past, x.task = t ∧
        ∃ stage' ending, x.was = some (.negotiation n stage') ∧ x.result.task = .done ending)
    (Or.inl ⟨stage, ht⟩) ?_
  rintro past x hp ⟨earlier, hbefore⟩ hx _
  have h : x.before.Consistent := hbefore ▸ consistent earlier
  rcases hp with ⟨stage', hleads⟩ | ⟨y, hy, hends⟩
  · rw [x.get?_after]
    -- only a step of its own changes the task
    by_cases hne : x.task = t
    · subst hne
      have hwas : x.was = some (.negotiation n stage') := (hx.taken h).task.symm.trans hleads
      rw [if_pos rfl]
      cases hresult : x.result.task with
      | ongoing task =>
        have hleft : x.left = some task := by rw [Episode.left, hresult]; rfl
        cases hx.continues h hwas hleft with
        | negotiation => exact Or.inl ⟨_, hleft⟩
      | done ending => exact Or.inr ⟨x, by simp, rfl, stage', ending, hwas, hresult⟩
    · rw [if_neg hne]
      exact Or.inl ⟨stage', hleads⟩
  · exact Or.inr ⟨y, List.mem_append_left _ hy, hends⟩

/-- A broadcast that is asked for nothing more can come to rest. -/
theorem exists_rest (start : List Action) :
    ∃ more, (∀ a ∈ more, ∀ q, a ≠ .request q) ∧ more.length ≤ (run {} start).work ∧
      ((run {} start).run more).AtRest := by
  -- by induction on the work that is left: one step of a task that can go on leaves less of it
  induction hwork : (run {} start).work using Nat.strong_induction_on generalizing start with
  | _ w ih =>
    by_cases hrest : (run {} start).AtRest
    · exact ⟨[], nofun, Nat.zero_le w, hrest⟩
    · have hgoes : ∃ t, (run {} start).CanGoOn t := by simpa [AtRest] using hrest
      have hpossible : ∃ a, (∀ q, a ≠ .request q) ∧ ((run {} start).step? a).isSome := by
        obtain ⟨t, hturn | hreply⟩ := hgoes
        · exact ⟨.turn t, nofun, hturn⟩
        · exact ⟨.reply t (.error (.unreachable "")), nofun, hreply _⟩
      obtain ⟨a, hno, hsome⟩ := hpossible
      obtain ⟨b, hb⟩ := Option.isSome_iff_exists.mp hsome
      obtain ⟨x, hepisode, rfl, hx, hbefore, haction⟩ := step?_cases hb
      have hafter : run {} (start ++ [a]) = x.after := by rw [run_append, step_of_episode? hepisode]
      have hless : x.after.work < w := by
        rw [← hwork, ← hbefore]
        exact hx.work_lt (hbefore ▸ consistent start) (haction ▸ hno)
      obtain ⟨more, hquiet, hlength, hends⟩ := ih _ hless (start ++ [a]) (by rw [hafter])
      rw [run_append] at hends
      refine ⟨a :: more, ?_, ?_, hends⟩
      · intro a' ha'
        rcases List.mem_cons.mp ha' with rfl | ha'
        · exact hno
        · exact hquiet a' ha'
      · rw [List.length_cons]
        omega

/--
Whatever happens after a run, the steps that tasks take are paid for by the work that was left and by what
requests cost. So if nothing more is asked for, every way of going on is finite, and ends at rest. When a
broadcast is at rest no task is left, and every negotiation that was under way has ended: it was accepted,
rejected or silenced, and all its steps together say so.
-/
theorem negotiations_end (start : List Action) :
    (∀ more, ((run {} start).history more).countP (fun x => x.was.isSome) +
        ((run {} start).run more).work ≤ (run {} start).work + (more.map Action.cost).sum) ∧
    (∃ more, (∀ a ∈ more, ∀ q, a ≠ .request q) ∧ more.length ≤ (run {} start).work ∧
      ((run {} start).run more).AtRest) ∧
    ∀ more, ((run {} start).run more).AtRest →
      (∀ t, ((run {} start).run more).tasks.get? t = none) ∧
      ∀ t n stage, (run {} start).tasks.get? t = some (.negotiation n stage) →
        ∃ x ∈ (run {} start).history more, x.task = t ∧
          ∃ stage' r, x.was = some (.negotiation n stage') ∧ x.result.task = .done (.negotiated r) ∧
            Outcome (stepsOf (history {} (start ++ more)) t) x.after.coordinator.registry n r := by
  refine ⟨work_run start, exists_rest start, fun more hrest => ?_⟩
  have hidle : ∀ t, ((run {} start).run more).tasks.get? t = none := by
    rw [← run_append_run] at hrest ⊢
    exact (locked _).idle hrest
  refine ⟨hidle, fun t n stage ht => ?_⟩
  rcases negotiation_run start more ht with ⟨_, hleads⟩ | ⟨x, hx, rfl, stage', ending, hwas, hdone⟩
  · cases (hidle t).symm.trans hleads
  · have hmem : x ∈ history {} (start ++ more) := by
      rw [history_append]
      exact List.mem_append_right _ hx
    obtain ⟨_, _, r, rfl, houtcome⟩ :=
      (chronicle (start ++ more)).ended x hmem n stage' ending hwas hdone
    exact ⟨x, hx, rfl, stage', r, hwas, hdone, houtcome⟩

end Broadcast

end Rostrum
