import Rostrum.Proofs.Broadcast.History

/-!
# Tasks with other numbers

What the coordinator does with the numbers of tasks is to keep them in the queue for the lock on the mix.
So a step is the same under other numbers, except that these stand in the queue.
-/

namespace Rostrum

/-- The lock and those who wait for it have other numbers. -/
def MixCell.renumber (f : TaskId → TaskId) (m : MixCell) : MixCell :=
  { m with holder := m.holder.map f, waiting := m.waiting.map f }

def Coordinator.renumber (f : TaskId → TaskId) (c : Coordinator) : Coordinator :=
  { c with mix := c.mix.renumber f }

def StepResult.renumber (f : TaskId → TaskId) (result : StepResult) : StepResult :=
  { result with coordinator := result.coordinator.renumber f }

namespace MixCell
variable (f : TaskId → TaskId) (m : MixCell) (t : TaskId)

@[simp] theorem renumber_made : (m.renumber f).made = m.made := rfl

@[simp] theorem renumber_published : (m.renumber f).published = m.published := rfl

theorem renumber_eq_self (h : ∀ t ∈ m.holder.toList ++ m.waiting, f t = t) : m.renumber f = m := by
  have hholder : m.holder.map f = m.holder := by
    cases hm : m.holder with
    | none => rfl
    | some t => exact congrArg some (h t (by simp [hm]))
  have hwaiting : m.waiting.map f = m.waiting :=
    (List.map_congr_left fun t ht => h t (List.mem_append_right _ ht)).trans (List.map_id _)
  rw [renumber, hholder, hwaiting]

theorem unlock_renumber : (m.renumber f).unlock = m.unlock.renumber f := by
  unfold unlock renumber
  cases m.waiting <;> rfl

theorem lock_renumber : (m.renumber f).lock (f t) = ((m.lock t).1, (m.lock t).2.renumber f) := by
  unfold lock renumber
  cases m.holder <;> simp

theorem enterRequest_renumber :
    (m.renumber f).enterRequest = (m.enterRequest.1, m.enterRequest.2.renumber f) := by
  unfold enterRequest
  rw [unlock_renumber, renumber_made]
  cases m.made <;> rfl

theorem request_renumber :
    (m.renumber f).request (f t) = ((m.request t).1, (m.request t).2.renumber f) := by
  unfold request
  rw [lock_renumber]
  obtain ⟨free | _, m'⟩ := m.lock t
  · rfl
  · exact enterRequest_renumber f m'

theorem resumeRequest_renumber (stage : MixRequest) (reply : Reply) :
    (m.renumber f).resumeRequest stage reply =
      ((m.resumeRequest stage reply).1, (m.resumeRequest stage reply).2.renumber f) := by
  cases stage <;> cases reply <;> first | rfl | simp only [resumeRequest, unlock_renumber]
  exact congrArg (Prod.mk _) (unlock_renumber f { m with made := _, published := _ })

theorem enterWithdrawal_renumber :
    (m.renumber f).enterWithdrawal = (m.enterWithdrawal.1, m.enterWithdrawal.2.renumber f) := by
  unfold enterWithdrawal
  rw [renumber_made]
  cases hmade : m.made with
  | some mix => rfl
  | none =>
    have hunlock := unlock_renumber f { m with published := none }
    rw [hmade] at hunlock
    exact congrArg (Prod.mk _) hunlock

theorem withdraw_renumber :
    (m.renumber f).withdraw (f t) = ((m.withdraw t).1, (m.withdraw t).2.renumber f) := by
  unfold withdraw
  rw [lock_renumber]
  obtain ⟨free | _, m'⟩ := m.lock t
  · rfl
  · exact enterWithdrawal_renumber f m'

theorem resumeWithdrawal_renumber (stage : MixWithdrawal) :
    (m.renumber f).resumeWithdrawal stage =
      ((m.resumeWithdrawal stage).1, (m.resumeWithdrawal stage).2.renumber f) := by
  cases stage <;> first | rfl | simp only [resumeWithdrawal, unlock_renumber]

end MixCell

namespace Coordinator
variable (f : TaskId → TaskId) (c : Coordinator)

@[simp] theorem renumber_registry : (c.renumber f).registry = c.registry := rfl

@[simp] theorem renumber_metrics : (c.renumber f).metrics = c.metrics := rfl

@[simp] theorem renumber_mix : (c.renumber f).mix = c.mix.renumber f := rfl

/-! ## Steps that leave the lock alone -/

theorem settle_renumber (e : Entry) : (c.renumber f).settle e = (c.settle e).renumber f := by
  unfold settle
  split <;> rfl

theorem release_renumber (e : Entry) (objects : List ObjectId) :
    (c.renumber f).release e objects = ((c.release e objects).1, (c.release e objects).2.renumber f) := by
  cases objects with
  | nil => exact congrArg (Prod.mk _) (settle_renumber f c e)
  | cons => rfl

theorem stop_renumber (s : SessionId) :
    (c.renumber f).stop s = ((c.stop s).1, (c.stop s).2.renumber f) := by
  unfold stop
  rw [renumber_registry]
  obtain ⟨action, registry⟩ := c.registry.stop s
  cases action with
  | teardown e => exact release_renumber f { c with registry := registry } e e.objects
  | marked | nothing => rfl

theorem reject_renumber (s : SessionId) (role : Role) (fault : NegotiationFault) :
    (c.renumber f).reject s role fault =
      ((c.reject s role fault).1, (c.reject s role fault).2.renumber f) := by
  unfold reject
  split <;> rfl

theorem prepare_renumber (s : SessionId) (role : Role) (offer : String) :
    (c.renumber f).prepare s role offer = ((c.prepare s role offer).1, (c.prepare s role offer).2.1,
      (c.prepare s role offer).2.2.renumber f) := by
  have hreserve : (c.renumber f).reserve s role offer =
      (c.reserve s role offer).map fun entered => (entered.1, entered.2.renumber f) := by
    unfold reserve
    have hsnap : (c.renumber f).snapshot s role = c.snapshot s role := rfl
    rw [hsnap, renumber_registry]
    cases c.snapshot s role with
    | error => rfl
    | ok snapshot =>
      cases c.registry.register s role with
      | error => simp [bind, Except.bind, Except.map]
      | ok => simp [bind, Except.bind, Except.map, pure, Except.pure, renumber]
  unfold prepare
  rw [hreserve]
  cases c.reserve s role offer with
  | ok => rfl
  | error fault =>
    simp only [Except.map, reject_renumber]

theorem submit_renumber (s : SessionId) (candidate : Candidate) :
    (c.renumber f).submit s candidate =
      ((c.submit s candidate).1, (c.submit s candidate).2.renumber f) := by
  unfold submit
  rw [renumber_registry]
  obtain ⟨destination, registry⟩ := c.registry.submit s candidate
  cases destination <;> rfl

section Negotiation
variable (n : Negotiation)

theorem giveUp_renumber (fault : NegotiationFault) (e : Entry) (objects : List ObjectId) :
    (c.renumber f).giveUp n fault e objects = (c.giveUp n fault e objects).renumber f := by
  cases objects with
  | cons => rfl
  | nil =>
    simp only [giveUp, settle_renumber, reject_renumber]
    split <;> rfl

theorem abort_renumber (fault : NegotiationFault) :
    (c.renumber f).abort n fault = (c.abort n fault).renumber f := by
  unfold abort
  rw [renumber_registry]
  obtain ⟨_ | e, registry⟩ := c.registry.remove n.session n.attempt
  · rfl
  · exact giveUp_renumber f { c with registry := registry } n fault e e.objects

theorem advanceChecked_renumber (stage : NegotiationStage) :
    (c.renumber f).advanceChecked n stage = (c.advanceChecked n stage).renumber f := by
  unfold advanceChecked
  rw [renumber_registry]
  cases c.registry.check n.session n.attempt with
  | ok => rfl
  | error fault => exact abort_renumber f c n fault

theorem answered_renumber (endpoint : Endpoint) (answer : String) :
    (c.renumber f).answered n endpoint answer = (c.answered n endpoint answer).renumber f := by
  unfold answered
  rw [renumber_registry]
  cases c.registry.check n.session n.attempt with
  | ok => rfl
  | error fault => exact abort_renumber f c n fault

theorem drain_renumber (endpoint : Endpoint) :
    (c.renumber f).drain n endpoint = (c.drain n endpoint).renumber f := by
  unfold drain
  rw [renumber_registry]
  obtain fault | ⟨_ | candidate, registry⟩ := c.registry.nextCandidate n.session n.attempt
  · exact abort_renumber f c n fault
  · rfl
  · rfl

theorem endpointMade_renumber (mix : SharedMix) (endpoint : Endpoint) :
    (c.renumber f).endpointMade n mix endpoint = (c.endpointMade n mix endpoint).renumber f := by
  unfold endpointMade
  rw [renumber_registry]
  obtain ⟨fault | _, registry⟩ := c.registry.setEndpoint n.session n.attempt endpoint
  · exact abort_renumber f { c with registry := registry } n fault
  · change (if c.mix.isCurrent mix then _ else _) =
      StepResult.renumber f (if c.mix.isCurrent mix then _ else _)
    split
    · rfl
    · exact abort_renumber f { c with registry := registry } n (mixGone n.role)

theorem portMade_renumber (endpoint : Endpoint) (port : MixerPort) :
    (c.renumber f).portMade n endpoint port = (c.portMade n endpoint port).renumber f := by
  unfold portMade
  rw [renumber_registry]
  obtain ⟨fault | _, registry⟩ := c.registry.setPort n.session n.attempt port
  · exact abort_renumber f { c with registry := registry } n fault
  · rfl

theorem complete_renumber (answer : String) :
    (c.renumber f).complete n answer = (c.complete n answer).renumber f := by
  unfold complete
  rw [renumber_registry]
  cases c.registry.finish n.session n.attempt with
  | error fault => exact abort_renumber f c n fault
  | ok => rfl

/-! ## Steps that use the mix -/

theorem afterMix_renumber (step : MixCell.RequestStep) :
    (c.renumber f).afterMix n (step.1, step.2.renumber f) = (c.afterMix n step).renumber f := by
  obtain ⟨stage | fault | shared, mix⟩ := step
  · rfl
  · exact abort_renumber f { c with mix := mix } n (.engine fault)
  · exact advanceChecked_renumber f { c with mix := mix } n (.creatingEndpoint shared)

theorem start_renumber (t : TaskId) : (c.renumber f).start (f t) n = (c.start t n).renumber f := by
  unfold start
  cases n.snapshot with
  | some shared => exact advanceChecked_renumber f c n (.creatingEndpoint shared)
  | none =>
    dsimp only
    rw [renumber_mix, MixCell.request_renumber]
    exact afterMix_renumber f c n (c.mix.request t)

theorem resume_renumber (stage : NegotiationStage) (reply : Reply) :
    (c.renumber f).resume n stage reply = (c.resume n stage reply).renumber f := by
  cases stage with
  | prepared => rfl
  | obtainingMix stage =>
    simp only [resume]
    rw [renumber_mix, MixCell.resumeRequest_renumber]
    exact afterMix_renumber f c n _
  | releasing fault e object rest => exact giveUp_renumber f c n fault e rest
  | creatingEndpoint mix =>
    cases reply with
    | ok id => exact endpointMade_renumber f c n mix ⟨⟨id⟩⟩
    | error fault => exact abort_renumber f c n (.engine fault)
  | creatingPort mix endpoint =>
    cases reply with
    | ok id => exact portMade_renumber f c n endpoint ⟨⟨id⟩⟩
    | error fault => exact abort_renumber f c n (.engine fault)
  | connecting endpoint port =>
    cases reply with
    | ok =>
      simp only [resume, renumber_registry]
      cases c.registry.check n.session n.attempt with
      | ok => exact drain_renumber f c n endpoint
      | error fault => exact abort_renumber f c n fault
    | error fault => exact abort_renumber f c n (.engine fault)
  | applying endpoint candidate =>
    cases reply with
    | ok => exact drain_renumber f c n endpoint
    | error fault => exact abort_renumber f c n (.engine fault)
  | subscribing endpoint =>
    cases reply with
    | ok => exact advanceChecked_renumber f c n (.offering endpoint)
    | error fault => exact abort_renumber f c n (.engine fault)
  | offering endpoint =>
    cases reply with
    | ok answer => exact answered_renumber f c n endpoint answer
    | error fault => exact abort_renumber f c n (.engine fault)
  | gathering endpoint answer =>
    cases reply with
    | ok => exact complete_renumber f c n answer
    | error fault => exact abort_renumber f c n (.engine fault)

end Negotiation

theorem mixRequested_renumber (step : MixCell.RequestStep) :
    (c.renumber f).mixRequested (step.1, step.2.renumber f) = (c.mixRequested step).renumber f := by
  obtain ⟨_ | _, _⟩ := step <;> rfl

theorem mixWithdrawn_renumber (step : MixCell.WithdrawalStep) :
    (c.renumber f).mixWithdrawn (step.1, step.2.renumber f) = (c.mixWithdrawn step).renumber f := by
  obtain ⟨_ | _, _⟩ := step <;> rfl

theorem shutdownWithdrawn_renumber (step : MixCell.WithdrawalStep) :
    (c.renumber f).shutdownWithdrawn (step.1, step.2.renumber f) =
      (c.shutdownWithdrawn step).renumber f := by
  obtain ⟨_ | _, _⟩ := step <;> rfl

theorem shutdownFrom_renumber (t : TaskId) (order : List SessionId) :
    (c.renumber f).shutdownFrom (f t) order = (c.shutdownFrom t order).renumber f := by
  induction order generalizing c with
  | nil =>
    simp only [shutdownFrom, shutdownMix]
    rw [renumber_mix, MixCell.withdraw_renumber]
    obtain ⟨_ | _, _⟩ := c.mix.withdraw t <;> rfl
  | cons s left ih =>
    simp only [shutdownFrom]
    rw [stop_renumber]
    obtain ⟨_ | _, c'⟩ := c.stop s
    · rfl
    · exact ih c'

theorem stopTask_renumber (s : SessionId) (leaving : Bool) (step : Progress Teardown Unit × Coordinator) :
    stopTask s leaving (step.1, step.2.renumber f) = (stopTask s leaving step).renumber f := by
  obtain ⟨_ | _, _⟩ := step <;> rfl

theorem countRelease_renumber (task : Task) (reply : Reply) :
    (c.renumber f).countRelease task reply = (c.countRelease task reply).renumber f := by
  unfold countRelease
  split <;> rfl

theorem stepReply_renumber (t : TaskId) (task : Task) (reply : Reply) :
    (c.renumber f).stepReply (f t) task reply = (c.stepReply t task reply).renumber f := by
  unfold stepReply
  rw [countRelease_renumber]
  generalize c.countRelease task reply = c
  cases task with
  | negotiation n stage => exact resume_renumber f c n stage reply
  | stop s leaving teardown =>
    dsimp only
    rw [release_renumber]
    exact stopTask_renumber f s leaving _
  | apply => rfl
  | shutdown stage =>
    cases stage with
    | stopping teardown left =>
      dsimp only
      rw [release_renumber]
      obtain ⟨_ | _, c'⟩ := c.release teardown.entry teardown.rest
      · rfl
      · exact shutdownFrom_renumber f c' t left
    | withdrawing stage =>
      dsimp only
      rw [renumber_mix, MixCell.resumeWithdrawal_renumber]
      exact shutdownWithdrawn_renumber f c _
  | mixRequest stage =>
    dsimp only
    rw [renumber_mix, MixCell.resumeRequest_renumber]
    exact mixRequested_renumber f c _
  | mixWithdrawal stage =>
    dsimp only
    rw [renumber_mix, MixCell.resumeWithdrawal_renumber]
    exact mixWithdrawn_renumber f c _

theorem stepTurn_renumber (t : TaskId) (task : Task) :
    (c.renumber f).stepTurn (f t) task = (c.stepTurn t task).renumber f := by
  unfold stepTurn
  split
  · exact start_renumber f c _ t
  · rw [renumber_mix, MixCell.enterRequest_renumber]
    exact afterMix_renumber f c _ _
  · rw [renumber_mix, MixCell.enterWithdrawal_renumber]
    exact shutdownWithdrawn_renumber f c _
  · rw [renumber_mix, MixCell.enterRequest_renumber]
    exact mixRequested_renumber f c _
  · rw [renumber_mix, MixCell.enterWithdrawal_renumber]
    exact mixWithdrawn_renumber f c _
  · rfl

theorem hasTurn_renumber (hf : Function.Injective f) (t : TaskId) (task : Task) :
    (c.renumber f).hasTurn (f t) task = c.hasTurn t task := by
  unfold hasTurn
  cases task.awaits with
  | start | reply => rfl
  | lock =>
    have hholder : c.mix.holder.map f = some (f t) ↔ c.mix.holder = some t := by
      rw [← Option.map_some (f := f), (Option.map_injective hf).eq_iff]
    simp [MixCell.renumber, hholder]

end Coordinator

namespace Broadcast

theorem serve_renumber (f : TaskId → TaskId) (c : Coordinator) (t : TaskId) (q : Request) :
    serve (c.renumber f) (f t) q = (serve c t q).renumber f := by
  cases q with
  | prepare s role offer =>
    simp only [serve, Coordinator.prepare_renumber]
    obtain ⟨_ | _, _, _⟩ := c.prepare s role offer <;> rfl
  | stop s leaving =>
    simp only [serve, Coordinator.stop_renumber]
    exact Coordinator.stopTask_renumber f s leaving _
  | submit s candidate =>
    simp only [serve, Coordinator.submit_renumber]
    obtain ⟨_ | _, _⟩ := c.submit s candidate <;> rfl
  | shutdown order => exact Coordinator.shutdownFrom_renumber f c t order
  | requestMix =>
    simp only [serve, Coordinator.renumber_mix, MixCell.request_renumber]
    exact Coordinator.mixRequested_renumber f c _
  | withdrawMix =>
    simp only [serve, Coordinator.renumber_mix, MixCell.withdraw_renumber]
    exact Coordinator.mixWithdrawn_renumber f c _

/-! ## Two broadcasts with other numbers -/

/-- What an event shows of the engine: a call, or a call with the reply to it. -/
def Event.dealing? : Event → Option (EngineCall SessionId × Option Reply)
  | .called _ => none
  | .issued _ task => task.call?.map fun call => (call, none)
  | .replied _ task reply => task.call?.map fun call => (call, some reply)

/-- The calls to the engine and the replies to them, in order. -/
def dealings (log : List Event) : List (EngineCall SessionId × Option Reply) :=
  log.filterMap Event.dealing?

/-- The object that the reply to a call brings. -/
def object? : EngineCall SessionId × Option Reply → Option (ObjectKind × ObjectId)
  | (call, some (.ok name)) => call.creates?.map fun kind => (kind, ⟨name⟩)
  | _ => none

def Action.renumber (f : TaskId → TaskId) : Action → Action
  | .request q => .request q
  | .turn t => .turn (f t)
  | .reply t said => .reply (f t) said

/-- The objects that were made can be read off the calls and replies. -/
theorem made_of_dealings {log log' : List Event} (h : dealings log' = dealings log) :
    made log' = made log := by
  have hmade : ∀ log, made log = (dealings log).filterMap object? := by
    intro log
    rw [made, dealings, List.filterMap_filterMap]
    refine List.filterMap_congr fun event _ => ?_
    cases event with
    | called => rfl
    | issued t task => cases h : task.call? <;> simp [Event.made?, Event.dealing?, object?, h]
    | replied t task reply =>
      cases h : task.call? <;> cases reply <;> simp [Event.made?, Event.dealing?, madeBy, object?, h]
  rw [hmade, hmade, h]

theorem requestCalls_renumber (f : TaskId → TaskId) (c : Coordinator) (q : Request) :
    requestCalls (c.renumber f) q = requestCalls c q := by
  cases q <;> rfl

/-- The number of a task behind one more task: it is one higher from a number on. -/
def behind (n : Nat) (t : TaskId) : TaskId := if t.number < n then t else ⟨t.number + 1⟩

theorem number_behind (n : Nat) (t : TaskId) :
    (behind n t).number = if t.number < n then t.number else t.number + 1 := by
  unfold behind
  split <;> rfl

theorem behind_of_lt {n : Nat} {t : TaskId} (h : t.number < n) : behind n t = t := if_pos h

theorem behind_of_le {n m : Nat} (h : n ≤ m) : behind n ⟨m⟩ = ⟨m + 1⟩ := if_neg (Nat.not_lt.mpr h)

theorem behind_ne (n : Nat) (t : TaskId) : ⟨n⟩ ≠ behind n t := by
  intro h
  have hnumber := congrArg TaskId.number h
  rw [number_behind] at hnumber
  dsimp only at hnumber
  split at hnumber <;> omega

theorem behind_injective (n : Nat) : Function.Injective (behind n) := by
  intro t t' h
  have hnumber := congrArg TaskId.number h
  rw [number_behind, number_behind] at hnumber
  have hsame : t.number = t'.number := by
    split at hnumber <;> split at hnumber <;> omega
  cases t
  cases t'
  exact congrArg TaskId.mk hsame

/-- A broadcast with one more task, which has ended, and the same broadcast without it. -/
structure Beside (n : Nat) (b b' : Broadcast) : Prop where
  le : n ≤ b.nextTask
  next : b'.nextTask = b.nextTask + 1
  coordinator : b'.coordinator = b.coordinator.renumber (behind n)
  tasks : ∀ t, b'.tasks.get? (behind n t) = b.tasks.get? t
  dealings : dealings b'.log = dealings b.log

theorem dealings_take (b : Broadcast) (t : TaskId) (was : Option Task) (reply : Option Reply)
    (calls : List Registry.Call) (result : StepResult) :
    dealings (b.take t was reply calls result).log = dealings b.log ++
      dealings (repliedEvents t was reply) ++ dealings (issuedEvents t result.task.ongoing?) := by
  have hcalled : ∀ deeds : List Registry.Deed, dealings (deeds.map .called) = [] := by
    intro deeds
    exact List.filterMap_eq_nil_iff.mpr (by simp [Event.dealing?])
  have happend : ∀ log more, dealings (log ++ more) = dealings log ++ dealings more :=
    fun _ _ => List.filterMap_append
  unfold take
  rw [happend, happend, happend, hcalled, List.append_nil]

/-- The number of a task is not among what passes between tasks and the engine. -/
theorem dealings_replied (t t' : TaskId) (was : Option Task) (reply : Option Reply) :
    dealings (repliedEvents t was reply) = dealings (repliedEvents t' was reply) := by
  cases was <;> cases reply <;> rfl

theorem dealings_issued (t t' : TaskId) (task : Option Task) :
    dealings (issuedEvents t task) = dealings (issuedEvents t' task) := by
  cases task with
  | none => rfl
  | some task =>
    rw [issuedEvents, issuedEvents]
    split <;> rfl

/-- The step that is taken in a broadcast with one more task. -/
def Episode.beside (n : Nat) (b' : Broadcast) (x : Episode) : Episode :=
  ⟨b', x.action.renumber (behind n), behind n x.task, x.was, x.result.renumber (behind n)⟩

namespace Beside
variable {n : Nat} {b b' : Broadcast}

section States
variable (h : Beside n b b')
include h

theorem take (t : TaskId) (was : Option Task) (reply : Option Reply) (calls : List Registry.Call)
    (result : StepResult) :
    Beside n (b.take t was reply calls result)
      (b'.take (behind n t) was reply calls (result.renumber (behind n))) := by
  have hle := h.le
  have hnext := h.next
  constructor
  · exact Nat.le_trans h.le (Nat.le_max_left _ _)
  · change max b'.nextTask ((behind n t).number + 1) = max b.nextTask (t.number + 1) + 1
    rw [number_behind]
    split <;> omega
  · rfl
  · intro t'
    rw [get?_take, get?_take, h.tasks t']
    by_cases hsame : t = t'
    · rw [if_pos hsame, if_pos (congrArg _ hsame)]
      rfl
    · rw [if_neg hsame, if_neg fun heq => hsame (behind_injective n heq)]
  · rw [dealings_take, dealings_take, h.dealings, dealings_replied _ t, dealings_issued _ t]
    rfl

theorem nextTask : (⟨b'.nextTask⟩ : TaskId) = behind n ⟨b.nextTask⟩ := by
  rw [h.next, behind_of_le h.le]

theorem sessions : b'.coordinator.registry.sessions = b.coordinator.registry.sessions := by
  rw [h.coordinator]
  rfl

theorem hasTurn (t : TaskId) (task : Task) :
    b'.coordinator.hasTurn (behind n t) task = b.coordinator.hasTurn t task := by
  rw [h.coordinator, Coordinator.hasTurn_renumber _ _ (behind_injective n)]

theorem admits (call : EngineCall SessionId) (reply : Reply) :
    Broadcast.admits b'.log call reply ↔ Broadcast.admits b.log call reply := by
  unfold Broadcast.admits
  rw [made_of_dealings h.dealings]

end States

section Episodes
variable {x : Episode} (h : Beside n x.before b')
include h

theorem calls : (x.beside n b').calls = x.calls := by
  obtain ⟨before, action, task, was, result⟩ := x
  have hcoordinator : b'.coordinator = before.coordinator.renumber (behind n) := h.coordinator
  unfold Episode.calls Episode.beside
  dsimp only
  rw [hcoordinator]
  cases was with
  | some => cases action <;> rfl
  | none =>
    cases action with
    | request q => exact requestCalls_renumber _ _ q
    | turn | reply => rfl

theorem after : Beside n x.after (x.beside n b').after := by
  have hreply : (x.beside n b').action.reply? = x.action.reply? := by
    unfold Episode.beside
    cases x.action <;> rfl
  unfold Episode.after
  rw [h.calls, hreply]
  exact h.take x.task x.was x.action.reply? x.calls x.result

/-- A step that can be taken without the further task can be taken beside it. -/
theorem occurs (hx : x.Occurs) : (x.beside n b').Occurs := by
  cases hx with
  | @request b q hperm =>
    change Beside n b b' at h
    have hserve : serve b'.coordinator ⟨b'.nextTask⟩ q =
        (serve b.coordinator ⟨b.nextTask⟩ q).renumber (behind n) := by
      rw [h.nextTask, h.coordinator, serve_renumber]
    unfold Episode.beside
    dsimp only
    rw [← hserve, ← h.nextTask]
    exact .request (h.sessions ▸ hperm)
  | @turn b t task ht hturn =>
    change Beside n b b' at h
    unfold Episode.beside
    dsimp only
    rw [← Coordinator.stepTurn_renumber, ← h.coordinator]
    exact .turn ((h.tasks t).trans ht) ((h.hasTurn t task).trans hturn)
  | @reply b t task call said ht hcall hadmits =>
    change Beside n b b' at h
    unfold Episode.beside
    dsimp only
    rw [← Coordinator.stepReply_renumber, ← h.coordinator]
    exact .reply ((h.tasks t).trans ht) hcall ((h.admits call said).mpr hadmits)

end Episodes

section Actions
variable (h : Beside n b b')
include h

/-- An action that is possible beside the further task is possible without it. -/
theorem possible {a : Action} {x' : Episode} (hx : x'.Occurs) (hbefore : x'.before = b')
    (haction : x'.action = a.renumber (behind n)) : (b.episode? a).isSome := by
  subst hbefore
  have hsome : ∀ {x : Episode}, x.Occurs → x.before = b → x.action = a → (b.episode? a).isSome := by
    rintro x hoccurs rfl rfl
    rw [hoccurs.episode?]
    rfl
  cases a with
  | request q =>
    cases hx with
    | request hperm =>
      cases haction
      exact hsome (.request (h.sessions ▸ hperm)) rfl rfl
    | turn | reply => cases haction
  | turn t =>
    cases hx with
    | turn ht hturn =>
      cases haction
      exact hsome (.turn ((h.tasks t).symm.trans ht) ((h.hasTurn t _).symm.trans hturn)) rfl rfl
    | request | reply => cases haction
  | reply t said =>
    cases hx with
    | reply ht hcall hadmits =>
      cases haction
      exact hsome (.reply ((h.tasks t).symm.trans ht) hcall ((h.admits _ _).mp hadmits)) rfl rfl
    | request | turn => cases haction

/-- An action leads to the same step beside the further task. -/
theorem episode? (a : Action) :
    b'.episode? (a.renumber (behind n)) = (b.episode? a).map (Episode.beside n b') := by
  cases hx : b.episode? a with
  | some x =>
    obtain ⟨_, hoccurs, rfl, rfl⟩ := step?_of_episode? hx
    exact (h.occurs hoccurs).episode?
  | none =>
    rw [Option.map_none, Option.eq_none_iff_forall_ne_some]
    intro x' hx'
    obtain ⟨_, hoccurs, hbefore, haction⟩ := step?_of_episode? hx'
    have hsome := h.possible hoccurs hbefore haction
    rw [hx] at hsome
    cases hsome

end Actions
end Beside
end Broadcast
end Rostrum
