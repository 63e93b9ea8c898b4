import Rostrum.Proofs.Broadcast.Conduct

/-!
# What a step does to the shared mix

`MixCell.Turn` lists all that a step can do to the mix and to the lock on it: the part of the task that
requests or withdraws the mix, before the step and after it, the mix that a request returns, and the
cell that is left. Steps that have nothing to do with the mix leave the cell as it is.
-/

namespace Rostrum

open Broadcast

/-- The result of something that is done. -/
def Progress.done? {σ α : Type} : Progress σ α → Option α
  | .ongoing _ => none
  | .done result => some result

/-- How far a task has come that requests the mix or withdraws it. -/
inductive MixUse where
  | request (stage : MixRequest)
  | withdrawal (stage : MixWithdrawal)

namespace MixUse

/-- Whether a task still waits for the lock. -/
def waits : MixUse → Bool
  | .request .waiting => true
  | .withdrawal .waiting => true
  | _ => false

def call? {L : Type} : MixUse → Option (EngineCall L)
  | .request stage => stage.call?
  | .withdrawal stage => stage.call?

def objects : MixUse → List (ObjectKind × ObjectId)
  | .request stage => stage.objects
  | .withdrawal stage => stage.objects

end MixUse

def Task.mixUse? : Task → Option MixUse
  | .negotiation _ (.obtainingMix stage) => some (.request stage)
  | .shutdown (.withdrawing stage) => some (.withdrawal stage)
  | .mixRequest stage => some (.request stage)
  | .mixWithdrawal stage => some (.withdrawal stage)
  | _ => none

namespace MixCell

/-- A task gets the lock: it finds it free, or it waited and was handed it. -/
inductive Enters (m : MixCell) (t : TaskId) (waiting : MixUse) : Option MixUse → MixCell → Prop where
  | free : m.holder = none → Enters m t waiting none { m with holder := some t }
  | handed : m.holder = some t → Enters m t waiting (some waiting) m

/-- What a step can do to the mix: its part before, the reply, its part afterwards, what it returns. -/
inductive Turn (m : MixCell) (t : TaskId) : Option MixUse → Option Reply → Option MixUse →
    Option (Except EngineFault SharedMix) → MixCell → Prop where
  | idle {reply} : Turn m t none reply none none m
  | queues {t' use reply} : m.holder = some t' → use.waits →
      Turn m t none reply (some use) none { m with waiting := m.waiting ++ [t] }
  | begins {use reply m'} : m.Enters t (.request .waiting) use m' → m.made = none →
      Turn m t use reply (some (.request .creatingPipeline)) none m'
  | finds {use reply m' mix} : m.Enters t (.request .waiting) use m' → m.made = some mix →
      Turn m t use reply none (some (.ok mix)) m'.unlock
  | pipelineMade {id} : Turn m t (some (.request .creatingPipeline)) (some (.ok id))
      (some (.request (.creatingMixer ⟨⟨id⟩⟩))) none m
  | pipelineFailed {fault} : Turn m t (some (.request .creatingPipeline)) (some (.error fault))
      none (some (.error fault)) m.unlock
  | mixerMade {pipeline id} : Turn m t (some (.request (.creatingMixer pipeline))) (some (.ok id))
      none (some (.ok ⟨pipeline, ⟨⟨id⟩⟩⟩))
      { m with made := some ⟨pipeline, ⟨⟨id⟩⟩⟩, published := some ⟨pipeline, ⟨⟨id⟩⟩⟩ }.unlock
  | mixerFailed {pipeline fault} : Turn m t (some (.request (.creatingMixer pipeline)))
      (some (.error fault)) (some (.request (.undoing pipeline fault))) none m
  | undone {pipeline fault reply} : Turn m t (some (.request (.undoing pipeline fault))) (some reply)
      none (some (.error fault)) m.unlock
  | takesOut {use reply m' mix} : m.Enters t (.withdrawal .waiting) use m' → m.made = some mix →
      Turn m t use reply (some (.withdrawal (.releasingMixer mix))) none
        { m' with made := none, published := none }
  | takesNothing {use reply m'} : m.Enters t (.withdrawal .waiting) use m' → m.made = none →
      Turn m t use reply none none { m' with published := none }.unlock
  | mixerReleased {mix reply} : Turn m t (some (.withdrawal (.releasingMixer mix))) (some reply)
      (some (.withdrawal (.releasingPipeline mix))) none m
  | pipelineReleased {mix reply} : Turn m t (some (.withdrawal (.releasingPipeline mix))) (some reply)
      none none m.unlock

variable {m m' : MixCell} {t : TaskId} {use : Option MixUse} {reply : Option Reply}

theorem Turn.of_idle {use' : Option MixUse} {ret : Option (Except EngineFault SharedMix)}
    (hm : m' = m) (hbefore : use = none) (hafter : use' = none) (hret : ret = none) :
    m.Turn t use reply use' ret m' := by
  subst hm hbefore hafter hret
  exact .idle

theorem lock_cases (m : MixCell) (t : TaskId) :
    (m.holder = none ∧ m.lock t = (true, { m with holder := some t })) ∨
      ∃ t', m.holder = some t' ∧ m.lock t = (false, { m with waiting := m.waiting ++ [t] }) := by
  unfold lock
  split
  · rename_i hfree
    exact Or.inl ⟨hfree, rfl⟩
  · rename_i t' htaken
    exact Or.inr ⟨t', htaken, rfl⟩

theorem Enters.made {waiting : MixUse} (h : m.Enters t waiting use m') : m'.made = m.made := by
  cases h <;> rfl

theorem enterRequest_turn (h : m.Enters t (.request .waiting) use m') :
    m.Turn t use reply (m'.enterRequest.1.ongoing?.map .request) m'.enterRequest.1.done?
      m'.enterRequest.2 := by
  unfold enterRequest
  split
  · rename_i mix hmade
    exact .finds h (h.made.symm.trans hmade)
  · rename_i hmade
    exact .begins h (h.made.symm.trans hmade)

theorem request_turn (m : MixCell) (t : TaskId) (reply : Option Reply) :
    m.Turn t none reply ((m.request t).1.ongoing?.map .request) (m.request t).1.done?
      (m.request t).2 := by
  unfold request
  rcases m.lock_cases t with ⟨hfree, hlock⟩ | ⟨t', htaken, hlock⟩ <;> rw [hlock]
  · exact enterRequest_turn (.free hfree)
  · exact @Turn.queues m t t' (.request .waiting) reply htaken rfl

theorem resumeRequest_turn (m : MixCell) (t : TaskId) {stage : MixRequest}
    (h : (stage.call? (L := SessionId)).isSome) (reply : Reply) :
    m.Turn t (some (.request stage)) (some reply)
      ((m.resumeRequest stage reply).1.ongoing?.map .request) (m.resumeRequest stage reply).1.done?
      (m.resumeRequest stage reply).2 := by
  cases stage with
  | waiting => cases h
  | creatingPipeline =>
    cases reply with
    | ok id => exact .pipelineMade
    | error fault => exact .pipelineFailed
  | creatingMixer pipeline =>
    cases reply with
    | ok id => exact .mixerMade
    | error fault => exact .mixerFailed
  | undoing pipeline fault => exact .undone

theorem enterWithdrawal_turn (h : m.Enters t (.withdrawal .waiting) use m') :
    m.Turn t use reply (m'.enterWithdrawal.1.ongoing?.map .withdrawal) none
      m'.enterWithdrawal.2 := by
  unfold enterWithdrawal
  split
  · rename_i mix hmade
    exact .takesOut h (h.made.symm.trans hmade)
  · rename_i hmade
    exact .takesNothing h (h.made.symm.trans hmade)

theorem withdraw_turn (m : MixCell) (t : TaskId) (reply : Option Reply) :
    m.Turn t none reply ((m.withdraw t).1.ongoing?.map .withdrawal) none (m.withdraw t).2 := by
  unfold withdraw
  rcases m.lock_cases t with ⟨hfree, hlock⟩ | ⟨t', htaken, hlock⟩ <;> rw [hlock]
  · exact enterWithdrawal_turn (.free hfree)
  · exact @Turn.queues m t t' (.withdrawal .waiting) reply htaken rfl

theorem resumeWithdrawal_turn (m : MixCell) (t : TaskId) {stage : MixWithdrawal}
    (h : (stage.call? (L := SessionId)).isSome) (reply : Reply) :
    m.Turn t (some (.withdrawal stage)) (some reply)
      ((m.resumeWithdrawal stage).1.ongoing?.map .withdrawal) none (m.resumeWithdrawal stage).2 := by
  cases stage with
  | waiting => cases h
  | releasingMixer mix => exact .mixerReleased
  | releasingPipeline mix => exact .pipelineReleased

end MixCell

namespace Coordinator
variable (c : Coordinator) (n : Negotiation) (fault : NegotiationFault)

/-- What a task works on for the mix when a step has left this of it. -/
def mixUseOf (result : StepResult) : Option MixUse := result.task.ongoing?.bind Task.mixUse?

theorem giveUp_mixUse (e : Entry) (objects : List ObjectId) :
    mixUseOf (c.giveUp n fault e objects) = none := by
  cases objects <;> rfl

theorem abort_mixUse : mixUseOf (c.abort n fault) = none := by
  unfold abort
  split
  · exact giveUp_mixUse _ _ _ _ _
  · rfl

theorem advanceChecked_mix (stage : NegotiationStage) :
    (c.advanceChecked n stage).coordinator.mix = c.mix := by
  unfold advanceChecked
  split
  · rfl
  · exact abort_mix _ _ _

theorem drain_mix (endpoint : Endpoint) : (c.drain n endpoint).coordinator.mix = c.mix := by
  unfold drain
  split
  · exact abort_mix _ _ _
  · rfl
  · rfl

theorem endpointMade_mix (mix : SharedMix) (endpoint : Endpoint) :
    (c.endpointMade n mix endpoint).coordinator.mix = c.mix := by
  unfold endpointMade
  split
  · exact abort_mix _ _ _
  · dsimp only
    split
    · rfl
    · exact abort_mix _ _ _

theorem portMade_mix (endpoint : Endpoint) (port : MixerPort) :
    (c.portMade n endpoint port).coordinator.mix = c.mix := by
  unfold portMade
  split
  · exact abort_mix _ _ _
  · rfl

theorem answered_mix (endpoint : Endpoint) (answer : String) :
    (c.answered n endpoint answer).coordinator.mix = c.mix := by
  unfold answered
  split
  · rfl
  · exact abort_mix _ _ _

theorem complete_mix (answer : String) : (c.complete n answer).coordinator.mix = c.mix := by
  unfold complete
  split
  · exact abort_mix _ _ _
  · rfl

/-- Only a negotiation that requests the mix touches it. -/
theorem resume_mix {stage : NegotiationStage} (h : stage.seeksMix = false) (reply : Reply) :
    (c.resume n stage reply).coordinator.mix = c.mix := by
  cases stage with
  | prepared | obtainingMix => cases h
  | releasing => exact giveUp_mix _ _ _ _ _
  | creatingEndpoint mix =>
    cases reply with
    | ok => exact endpointMade_mix _ _ _ _
    | error => exact abort_mix _ _ _
  | creatingPort mix endpoint =>
    cases reply with
    | ok => exact portMade_mix _ _ _ _
    | error => exact abort_mix _ _ _
  | connecting endpoint port =>
    cases reply with
    | ok text =>
      rcases c.connected_cases n endpoint port text with ⟨_, hresume⟩ | ⟨fault, _, hresume⟩
      · rw [hresume]
        exact drain_mix _ _ _
      · rw [hresume]
        exact abort_mix _ _ _
    | error => exact abort_mix _ _ _
  | applying endpoint candidate =>
    cases reply with
    | ok => exact drain_mix _ _ _
    | error => exact abort_mix _ _ _
  | subscribing endpoint =>
    cases reply with
    | ok => exact advanceChecked_mix _ _ _
    | error => exact abort_mix _ _ _
  | offering endpoint =>
    cases reply with
    | ok => exact answered_mix _ _ _ _
    | error => exact abort_mix _ _ _
  | gathering endpoint answer =>
    cases reply with
    | ok => exact complete_mix _ _ _
    | error => exact abort_mix _ _ _

theorem advanceChecked_mixUse (stage : NegotiationStage) (h : stage.seeksMix = false) :
    mixUseOf (c.advanceChecked n stage) = none := by
  unfold advanceChecked
  split
  · cases stage <;> first | rfl | cases h
  · exact abort_mixUse _ _ _

/-- A negotiation that requests the mix hands the cell on. -/
theorem afterMix_turn (step : MixCell.RequestStep) :
    (c.afterMix n step).coordinator.mix = step.2 ∧
      mixUseOf (c.afterMix n step) = step.1.ongoing?.map .request := by
  unfold afterMix
  split
  · exact ⟨rfl, rfl⟩
  · exact ⟨advanceChecked_mix _ _ _, advanceChecked_mixUse _ _ _ rfl⟩
  · exact ⟨abort_mix _ _ _, abort_mixUse _ _ _⟩

theorem mixRequested_turn (step : MixCell.RequestStep) :
    (c.mixRequested step).coordinator.mix = step.2 ∧
      mixUseOf (c.mixRequested step) = step.1.ongoing?.map .request := by
  obtain ⟨stage | result, m⟩ := step <;> exact ⟨rfl, rfl⟩

theorem mixWithdrawn_turn (step : MixCell.WithdrawalStep) :
    (c.mixWithdrawn step).coordinator.mix = step.2 ∧
      mixUseOf (c.mixWithdrawn step) = step.1.ongoing?.map .withdrawal := by
  obtain ⟨stage | result, m⟩ := step <;> exact ⟨rfl, rfl⟩

theorem shutdownWithdrawn_turn (step : MixCell.WithdrawalStep) :
    (c.shutdownWithdrawn step).coordinator.mix = step.2 ∧
      mixUseOf (c.shutdownWithdrawn step) = step.1.ongoing?.map .withdrawal := by
  obtain ⟨stage | result, m⟩ := step <;> exact ⟨rfl, rfl⟩

theorem prepare_mix (s : SessionId) (role : Role) (offer : String) :
    (c.prepare s role offer).2.2.mix = c.mix := by
  unfold prepare reserve
  cases c.snapshot s role with
  | error fault => exact reject_mix _ _ _ _
  | ok snapshot =>
    cases h : c.registry.register s role with
    | error fault => simp [Bind.bind, Except.bind]
    | ok entered => rfl

theorem submit_mix (s : SessionId) (candidate : Candidate) :
    (c.submit s candidate).2.mix = c.mix := by
  unfold submit
  split
  split <;> rfl

theorem submit_task (s : SessionId) (candidate : Candidate) (task : Task)
    (h : (c.submit s candidate).1 = .ongoing task) : task.mixUse? = none := by
  unfold submit at h
  split at h
  dsimp only at h
  split at h <;> cases h
  rfl

theorem release_mix (e : Entry) (objects : List ObjectId) : (c.release e objects).2.mix = c.mix := by
  cases objects
  · exact settle_mix _ _
  · rfl

theorem shutdownFrom_turn (t : TaskId) (reply : Option Reply) (order : List SessionId)
    (c : Coordinator) :
    c.mix.Turn t none reply (mixUseOf (c.shutdownFrom t order)) none
      (c.shutdownFrom t order).coordinator.mix := by
  induction order generalizing c with
  | nil =>
    have h := c.mix.withdraw_turn t reply
    simp only [shutdownFrom, shutdownMix]
    generalize c.mix.withdraw t = step at h
    obtain ⟨stage | existed, m⟩ := step <;> exact h
  | cons s left ih =>
    have hmix := c.stop_mix s
    unfold shutdownFrom
    generalize c.stop s = stopped at hmix
    obtain ⟨d | _, c'⟩ := stopped
    · exact .of_idle hmix rfl rfl rfl
    · exact hmix ▸ ih c'

end Coordinator

namespace Broadcast

/-- The step of a request for the mix that is part of an episode. -/
def Episode.mixRequest? (x : Episode) : Option MixCell.RequestStep :=
  let m := x.before.coordinator.mix
  match x.was, x.action with
  | none, .request .requestMix => some (m.request x.task)
  | some (.negotiation n .prepared), .turn _ =>
    if n.snapshot.isNone then some (m.request x.task) else none
  | some task, .turn _ =>
    match task.mixUse? with
    | some (.request _) => some m.enterRequest
    | _ => none
  | some task, .reply _ reply =>
    match task.mixUse? with
    | some (.request stage) => some (m.resumeRequest stage reply)
    | _ => none
  | _, _ => none

/-- What a request for the mix returns in an episode. -/
def Episode.obtained? (x : Episode) : Option (Except EngineFault SharedMix) :=
  x.mixRequest?.bind fun step => step.1.done?

section Turns
variable {c : Coordinator} {t : TaskId}

/-- The mix and the part of a task that works on it, from before a step to after it. -/
abbrev Turns (c : Coordinator) (t : TaskId) (was : Option Task) (reply : Option Reply)
    (result : StepResult) (ret : Option (Except EngineFault SharedMix)) : Prop :=
  c.mix.Turn t (was.bind Task.mixUse?) reply (Coordinator.mixUseOf result) ret result.coordinator.mix

theorem turns_of_eq {was : Option Task} {reply : Option Reply} {result : StepResult}
    {use : Option MixUse} {m : MixCell} {ret : Option (Except EngineFault SharedMix)}
    (h : result.coordinator.mix = m ∧ Coordinator.mixUseOf result = use)
    (hturn : c.mix.Turn t (was.bind Task.mixUse?) reply use ret m) : Turns c t was reply result ret := by
  obtain ⟨rfl, rfl⟩ := h
  exact hturn

theorem serve_turns (c : Coordinator) (t : TaskId) (q : Request) :
    Turns c t none none (serve c t q)
      (match q with | .requestMix => (c.mix.request t).1.done? | _ => none) := by
  cases q with
  | prepare s role offer =>
    have hmix := c.prepare_mix s role offer
    simp only [Turns, serve]
    generalize c.prepare s role offer = prepared at hmix
    obtain ⟨fault | n, notices, c'⟩ := prepared <;> exact .of_idle hmix rfl rfl rfl
  | stop s leaving =>
    have hmix := c.stop_mix s
    simp only [Turns, serve]
    generalize c.stop s = stopped at hmix
    obtain ⟨d | _, c'⟩ := stopped <;> exact .of_idle hmix rfl rfl rfl
  | submit s candidate =>
    have hmix := c.submit_mix s candidate
    have happly := c.submit_task s candidate
    simp only [Turns, serve]
    generalize c.submit s candidate = submitted at hmix happly
    obtain ⟨task | _, c'⟩ := submitted
    · exact .of_idle hmix rfl (happly task rfl) rfl
    · exact .of_idle hmix rfl rfl rfl
  | shutdown order => exact Coordinator.shutdownFrom_turn t none order c
  | requestMix => exact turns_of_eq (c.mixRequested_turn _) (c.mix.request_turn t none)
  | withdrawMix => exact turns_of_eq (c.mixWithdrawn_turn _) (c.mix.withdraw_turn t none)

theorem Conducts.mixUse {n : Negotiation} {stage : NegotiationStage} {reply : Option Reply}
    {result : StepResult} (h : Conducts c n stage reply result) (hseeks : stage.seeksMix = false) :
    Coordinator.mixUseOf result = none := by
  cases h with
  | waits hs =>
    rw [hseeks] at hs
    cases hs
  | @goesOn c' stage' _ _ _ hs => cases stage' <;> first | rfl | cases hs
  | completes => rfl
  | givesUp => exact Coordinator.giveUp_mixUse _ _ _ _ _

theorem holder_of_hasTurn {task : Task} (h : c.hasTurn t task) (hawaits : task.awaits = .lock) :
    c.mix.holder = some t := by
  unfold Coordinator.hasTurn at h
  rw [hawaits] at h
  exact of_decide_eq_true h

end Turns

section Turns
variable {b : Broadcast} {t : TaskId} {task : Task}

theorem stepTurn_turns (hturn : b.coordinator.hasTurn t task) :
    Turns b.coordinator t (some task) none (b.coordinator.stepTurn t task)
      (Episode.obtained? ⟨b, .turn t, t, some task, b.coordinator.stepTurn t task⟩) := by
  cases task with
  | negotiation n stage =>
    cases stage with
    | prepared =>
      simp only [Coordinator.stepTurn, Coordinator.start, Episode.obtained?, Episode.mixRequest?]
      cases hsnap : n.snapshot with
      | none =>
        exact turns_of_eq (Coordinator.afterMix_turn _ _ _) (b.coordinator.mix.request_turn t none)
      | some shared =>
        exact .of_idle (Coordinator.advanceChecked_mix _ _ _) rfl
          (Coordinator.advanceChecked_mixUse _ _ _ rfl) rfl
    | obtainingMix request =>
      cases request with
      | waiting =>
        exact turns_of_eq (Coordinator.afterMix_turn _ _ _)
          (MixCell.enterRequest_turn (.handed (holder_of_hasTurn hturn rfl)))
      | _ => cases hturn
    | connecting =>
      have hcall := call?_of_hasTurn hturn
      cases hrole : n.role <;> simp [Task.call?, NegotiationStage.call?, hrole] at hcall
    | _ => cases hturn
  | shutdown stage =>
    cases stage with
    | stopping => cases hturn
    | withdrawing stage =>
      cases stage with
      | waiting =>
        exact turns_of_eq (Coordinator.shutdownWithdrawn_turn _ _)
          (MixCell.enterWithdrawal_turn (.handed (holder_of_hasTurn hturn rfl)))
      | _ => cases hturn
  | mixRequest stage =>
    cases stage with
    | waiting =>
      exact turns_of_eq (Coordinator.mixRequested_turn _ _)
        (MixCell.enterRequest_turn (.handed (holder_of_hasTurn hturn rfl)))
    | _ => cases hturn
  | mixWithdrawal stage =>
    cases stage with
    | waiting =>
      exact turns_of_eq (Coordinator.mixWithdrawn_turn _ _)
        (MixCell.enterWithdrawal_turn (.handed (holder_of_hasTurn hturn rfl)))
    | _ => cases hturn
  | _ => cases hturn

theorem stepReply_turns (h : b.Consistent) {reply : Reply}
    (hx : Episode.Occurs ⟨b, .reply t reply, t, some task, b.coordinator.stepReply t task reply⟩) :
    Turns b.coordinator t (some task) (some reply) (b.coordinator.stepReply t task reply)
      (Episode.obtained? ⟨b, .reply t reply, t, some task, b.coordinator.stepReply t task reply⟩) := by
  have hmix := b.coordinator.countRelease_mix task reply
  have hcall : task.call?.isSome := by
    cases hx with
    | reply _ hcall => exact Option.isSome_of_eq_some hcall
  cases task with
  | negotiation n stage =>
    cases hseeks : stage.seeksMix with
    | true =>
      cases stage with
      | prepared => cases hcall
      | obtainingMix request =>
        refine turns_of_eq (Coordinator.afterMix_turn _ _ _) ?_
        rw [hmix]
        exact MixCell.resumeRequest_turn _ _ hcall reply
      | _ => cases hseeks
    | false =>
      have hbefore : (Task.negotiation n stage).mixUse? = none := by
        cases stage <;> first | rfl | cases hseeks
      have hafter : Coordinator.mixUseOf (b.coordinator.stepReply t (.negotiation n stage) reply) = none := by
        cases hlive : stage.isLive with
        | true => exact (hx.conducts h rfl hlive).mixUse hseeks
        | false =>
          cases stage with
          | releasing => exact Coordinator.giveUp_mixUse _ _ _ _ _
          | _ => cases hlive
      refine .of_idle ((Coordinator.resume_mix _ _ hseeks _).trans hmix) hbefore hafter ?_
      cases stage <;> first | rfl | cases hseeks
  | stop s leaving d =>
    have hrelease := Coordinator.release_mix
      (b.coordinator.countRelease (.stop s leaving d) reply) d.entry d.rest
    simp only [Turns, Coordinator.stepReply]
    generalize Coordinator.release _ d.entry d.rest = released at hrelease
    obtain ⟨d' | _, c'⟩ := released <;> exact .of_idle (hrelease.trans hmix) rfl rfl rfl
  | apply s endpoint candidate => exact .of_idle hmix rfl rfl rfl
  | shutdown stage =>
    cases stage with
    | stopping d left =>
      have hrelease := Coordinator.release_mix
        (b.coordinator.countRelease (.shutdown (.stopping d left)) reply) d.entry d.rest
      simp only [Turns, Coordinator.stepReply]
      generalize Coordinator.release _ d.entry d.rest = released at hrelease
      obtain ⟨d' | _, c'⟩ := released
      · exact .of_idle (hrelease.trans hmix) rfl rfl rfl
      · have hturn := c'.shutdownFrom_turn t (some reply) left
        rwa [hrelease.trans hmix] at hturn
    | withdrawing stage =>
      refine turns_of_eq (Coordinator.shutdownWithdrawn_turn _ _) ?_
      rw [hmix]
      exact MixCell.resumeWithdrawal_turn _ _ hcall reply
  | mixRequest stage =>
    refine turns_of_eq (Coordinator.mixRequested_turn _ _) ?_
    rw [hmix]
    exact MixCell.resumeRequest_turn _ _ hcall reply
  | mixWithdrawal stage =>
    refine turns_of_eq (Coordinator.mixWithdrawn_turn _ _) ?_
    rw [hmix]
    exact MixCell.resumeWithdrawal_turn _ _ hcall reply

/-- What an episode does to the mix. -/
theorem Episode.Occurs.turns {x : Episode} (hx : x.Occurs) (h : x.before.Consistent) :
    Turns x.before.coordinator x.task x.was x.action.reply? x.result x.obtained? := by
  cases hx with
  | @request b q hperm =>
    have hserve := serve_turns b.coordinator ⟨b.nextTask⟩ q
    cases q <;> exact hserve
  | turn ht hturn => exact stepTurn_turns hturn
  | reply ht hcall hadmits => exact stepReply_turns h (.reply ht hcall hadmits)

end Turns

end Broadcast

end Rostrum
