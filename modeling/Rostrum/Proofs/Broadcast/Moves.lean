import Rostrum.Proofs.Broadcast.Basic

/-!
# What a step of a task can do

`Move` says it once for all tasks and requests: the calls to the registry, what the registry answers,
and the task that is left. Mixes come and go beside that; of a step it is only said that it knows no
pipeline and no mixer but those that were known before or were just made.
-/

namespace Rostrum

open Broadcast

def SharedMix.objects (mix : SharedMix) : List (ObjectKind × ObjectId) :=
  [(.pipeline, mix.pipeline.id), (.mixer, mix.mixer.id)]

def MixCell.objects (m : MixCell) : List (ObjectKind × ObjectId) :=
  (m.made.toList ++ m.published.toList).flatMap SharedMix.objects

def MixRequest.objects : MixRequest → List (ObjectKind × ObjectId)
  | .waiting => []
  | .creatingPipeline => []
  | .creatingMixer pipeline => [(.pipeline, pipeline.id)]
  | .undoing pipeline _ => [(.pipeline, pipeline.id)]

def MixWithdrawal.objects : MixWithdrawal → List (ObjectKind × ObjectId)
  | .waiting => []
  | .releasingMixer mix => mix.objects
  | .releasingPipeline mix => mix.objects

namespace NegotiationStage

/-- The pipelines and mixers that a negotiation knows from its stage. -/
def mixObjects : NegotiationStage → List (ObjectKind × ObjectId)
  | .obtainingMix request => request.objects
  | .creatingEndpoint mix => mix.objects
  | .creatingPort mix _ => mix.objects
  | _ => []

/-- Whether a negotiation does not have the mix yet. -/
def seeksMix : NegotiationStage → Bool
  | .prepared => true
  | .obtainingMix _ => true
  | _ => false

/-- Whether a negotiation applies waiting candidates to an endpoint next. -/
inductive Drains (endpoint : Endpoint) : NegotiationStage → Prop where
  | connecting (port : MixerPort) : Drains endpoint (.connecting endpoint port)
  | applying (candidate : Candidate) : Drains endpoint (.applying endpoint candidate)

/-- Whether a negotiation has applied all waiting candidates to an endpoint. -/
inductive Drained (endpoint : Endpoint) : NegotiationStage → Prop where
  | subscribing : Drained endpoint (.subscribing endpoint)
  | offering : Drained endpoint (.offering endpoint)
  | gathering (answer : String) : Drained endpoint (.gathering endpoint answer)

end NegotiationStage

namespace Task

/-- What a task has still to release. -/
def teardown? : Task → Option Teardown
  | .negotiation _ (.releasing _ entry object rest) => some ⟨entry, object, rest⟩
  | .stop _ _ teardown => some teardown
  | .shutdown (.stopping teardown _) => some teardown
  | _ => none

/-- The negotiation that a task leads. -/
def live? : Task → Option (Negotiation × NegotiationStage)
  | .negotiation n stage => if stage.isLive then some (n, stage) else none
  | _ => none

/-- Whether a task works on the mix alone. -/
def isMix : Task → Bool
  | .mixRequest _ => true
  | .mixWithdrawal _ => true
  | .shutdown (.withdrawing _) => true
  | _ => false

/-- The pipelines and mixers that a task knows. -/
def mixObjects : Task → List (ObjectKind × ObjectId)
  | .negotiation n stage => n.snapshot.toList.flatMap SharedMix.objects ++ stage.mixObjects
  | .shutdown (.withdrawing stage) => stage.objects
  | .mixRequest stage => stage.objects
  | .mixWithdrawal stage => stage.objects
  | _ => []

end Task

namespace Broadcast

/--
How the objects of the entries that were handed out are released: the first one at once, the others
when their turn comes.
-/
inductive Disposes : Option Teardown → List Entry → Option Task → Prop where
  | goesOn {d o rest task} : d.rest = o :: rest → task.teardown? = some ⟨d.entry, o, rest⟩ →
      Disposes (some d) [] (some task)
  | begins {before es e o rest task} : (∀ d ∈ before, d.rest = []) → (∀ x ∈ es, x.objects = []) →
      e.objects = o :: rest → task.teardown? = some ⟨e, o, rest⟩ →
      Disposes before (es ++ [e]) (some task)
  | ends {before es after} : (∀ d ∈ before, d.rest = []) → (∀ x ∈ es, x.objects = []) →
      (∀ task ∈ after, task.isMix) → Disposes before es after

/-- A step: the task before, the reply it was given, the calls to the registry, the task afterwards. -/
inductive Move (r : Registry) : Option Task → Option Reply → List Registry.Call → Option Task → Prop where
  | enters {s role offer snapshot a} : r.answer (.register s role) = .entered a →
      Move r none none [.register s role] (some (.negotiation ⟨s, a, role, offer, snapshot⟩ .prepared))
  | refused {s role fault} : r.answer (.register s role) = .refused fault →
      Move r none none [.register s role] none
  | buffers {s c} : r.answer (.submit s c) = .destination .buffered →
      Move r none none [.submit s c] none
  | applies {s c endpoint} : r.answer (.submit s c) = .destination (.apply endpoint c) →
      Move r none none [.submit s c] (some (.apply s endpoint c))
  | disposes {before reply after} {sessions : List SessionId} : (∀ task ∈ before, task.live? = none) →
      Disposes (before.bind Task.teardown?) (Registry.handedOut (r.log (sessions.map .stop))) after →
      Move r before reply (sessions.map .stop) after
  | waits {n stage reply request} : stage.seeksMix →
      Move r (some (.negotiation n stage)) reply [] (some (.negotiation n (.obtainingMix request)))
  | obtains {n stage reply mix} : stage.seeksMix →
      Move r (some (.negotiation n stage)) reply [] (some (.negotiation n (.creatingEndpoint mix)))
  | endpointMade {n mix id} : r.answer (.setEndpoint n.session n.attempt ⟨⟨id⟩⟩) = .granted →
      Move r (some (.negotiation n (.creatingEndpoint mix))) (some (.ok id))
        [.setEndpoint n.session n.attempt ⟨⟨id⟩⟩] (some (.negotiation n (.creatingPort mix ⟨⟨id⟩⟩)))
  | portMade {n mix endpoint id} : r.answer (.setPort n.session n.attempt ⟨⟨id⟩⟩) = .granted →
      Move r (some (.negotiation n (.creatingPort mix endpoint))) (some (.ok id))
        [.setPort n.session n.attempt ⟨⟨id⟩⟩] (some (.negotiation n (.connecting endpoint ⟨⟨id⟩⟩)))
  | applying {n stage endpoint text c} : stage.Drains endpoint →
      r.answer (.nextCandidate n.session n.attempt) = .candidate (some c) →
      Move r (some (.negotiation n stage)) (some (.ok text)) [.nextCandidate n.session n.attempt]
        (some (.negotiation n (.applying endpoint c)))
  | drained {n stage endpoint text} : stage.Drains endpoint →
      r.answer (.nextCandidate n.session n.attempt) = .candidate none →
      Move r (some (.negotiation n stage)) (some (.ok text)) [.nextCandidate n.session n.attempt]
        (some (.negotiation n (.subscribing endpoint)))
  | goesOn {n stage stage' endpoint text} : stage.Drained endpoint → stage'.Drained endpoint →
      Move r (some (.negotiation n stage)) (some (.ok text)) [] (some (.negotiation n stage'))
  | completes {n endpoint answer text} : r.answer (.finish n.session n.attempt) = .granted →
      Move r (some (.negotiation n (.gathering endpoint answer))) (some (.ok text))
        [.finish n.session n.attempt] none
  | givesUp {n stage reply after} : stage.isLive →
      (∀ call ∈ stage.asks n reply, call.stores ∨ r.next call = r) →
      Disposes none
        (Registry.handedOut
          (r.log ((stage.asks n reply).toList ++ [.remove n.session n.attempt]))) after →
      Move r (some (.negotiation n stage)) reply
        ((stage.asks n reply).toList ++ [.remove n.session n.attempt]) after

theorem Disposes.first {e : Entry} {o : ObjectId} {rest : List ObjectId} {task : Task}
    (ho : e.objects = o :: rest) (ht : task.teardown? = some ⟨e, o, rest⟩) :
    Disposes none [e] (some task) :=
  @Disposes.begins none [] e o rest task (by simp) (by simp) ho ht

section Disposes
variable {r : Registry} {before after : Option Task} {reply : Option Reply}
  (hno : ∀ task ∈ before, task.live? = none)
include hno

theorem Move.disposes_nothing (hd : Disposes (before.bind Task.teardown?) [] after) :
    Move r before reply [] after :=
  @Move.disposes r before reply after [] hno hd

theorem Move.disposes_stopped {s : SessionId}
    (hd : Disposes (before.bind Task.teardown?) (Registry.handedOut (r.log [.stop s])) after) :
    Move r before reply [.stop s] after :=
  @Move.disposes r before reply after [s] hno hd

end Disposes

/-- The pipelines and mixers that are known. -/
def held (m : MixCell) (task : Option Task) : List (ObjectKind × ObjectId) :=
  m.objects ++ task.toList.flatMap Task.mixObjects

/-- The objects a step brings. -/
def brought : Option Task → Option Reply → List (ObjectKind × ObjectId)
  | some task, some reply => (madeBy task reply).toList
  | _, _ => []

/-- What has to be known of a step: what becomes of the registry, of the task and of the mix. -/
structure Follows (c : Coordinator) (task : Option Task) (reply : Option Reply)
    (calls : List Registry.Call) (result : StepResult) : Prop where
  registry : result.coordinator.registry = c.registry.after calls
  move : Move c.registry task reply calls result.task.ongoing?
  mix : held result.coordinator.mix result.task.ongoing? ⊆ held c.mix task ++ brought task reply

end Broadcast

namespace MixCell
variable (m : MixCell)

/-- The pipelines and mixers that a request knows or has obtained. -/
def requestObjects : Progress MixRequest (Except EngineFault SharedMix) → List (ObjectKind × ObjectId)
  | .ongoing stage => stage.objects
  | .done (.ok mix) => mix.objects
  | .done (.error _) => []

def withdrawalObjects : Progress MixWithdrawal Bool → List (ObjectKind × ObjectId)
  | .ongoing stage => stage.objects
  | .done _ => []

@[simp] theorem unlock_objects : m.unlock.objects = m.objects := by
  unfold unlock
  split <;> rfl

@[simp] theorem lock_objects (t : TaskId) : (m.lock t).2.objects = m.objects := by
  unfold lock
  split <;> rfl

theorem made_subset {mix : SharedMix} (h : m.made = some mix) : mix.objects ⊆ m.objects := by
  intro o ho
  simp [objects, h, ho]

theorem enterRequest_objects :
    m.enterRequest.2.objects ++ requestObjects m.enterRequest.1 ⊆ m.objects := by
  unfold enterRequest
  cases h : m.made with
  | none => simp [requestObjects, MixRequest.objects]
  | some mix => simpa [requestObjects] using m.made_subset h

theorem request_objects (t : TaskId) :
    (m.request t).2.objects ++ requestObjects (m.request t).1 ⊆ m.objects := by
  have hlock := m.lock_objects t
  unfold request
  generalize m.lock t = locked at *
  obtain ⟨_ | _, m'⟩ := locked
  · simp [requestObjects, MixRequest.objects, ← hlock]
  · exact hlock ▸ m'.enterRequest_objects

theorem enterWithdrawal_objects :
    m.enterWithdrawal.2.objects ++ withdrawalObjects m.enterWithdrawal.1 ⊆ m.objects := by
  unfold enterWithdrawal
  cases h : m.made with
  | none =>
    rw [withdrawalObjects, List.append_nil, unlock_objects]
    intro o ho
    simp [objects] at ho
  | some mix =>
    intro o ho
    refine m.made_subset h ?_
    simpa [withdrawalObjects, MixWithdrawal.objects, objects] using ho

theorem withdraw_objects (t : TaskId) :
    (m.withdraw t).2.objects ++ withdrawalObjects (m.withdraw t).1 ⊆ m.objects := by
  have hlock := m.lock_objects t
  unfold withdraw
  generalize m.lock t = locked at *
  obtain ⟨_ | _, m'⟩ := locked
  · simp [withdrawalObjects, MixWithdrawal.objects, ← hlock]
  · exact hlock ▸ m'.enterWithdrawal_objects

theorem resumeWithdrawal_objects (stage : MixWithdrawal) :
    (m.resumeWithdrawal stage).2.objects ++ withdrawalObjects (m.resumeWithdrawal stage).1 ⊆
      m.objects ++ stage.objects := by
  cases stage with
  | waiting => simp [resumeWithdrawal, withdrawalObjects, MixWithdrawal.objects]
  | releasingMixer mix => exact List.Subset.refl _
  | releasingPipeline mix => simp [resumeWithdrawal, withdrawalObjects]

/-- A request gets to know what it asked the engine to make. -/
theorem resumeRequest_objects (stage : MixRequest) (reply : Reply) :
    (m.resumeRequest stage reply).2.objects ++ requestObjects (m.resumeRequest stage reply).1 ⊆
      m.objects ++ stage.objects ++ (madeBy (.mixRequest stage) reply).toList := by
  cases stage with
  | waiting => simp [resumeRequest, requestObjects, MixRequest.objects]
  | creatingPipeline =>
    cases reply with
    | ok name =>
      simp [resumeRequest, requestObjects, MixRequest.objects, madeBy, Task.call?, MixRequest.call?,
        EngineCall.creates?]
    | error => simp [resumeRequest, requestObjects]
  | creatingMixer pipeline =>
    cases reply with
    | ok name =>
      simp only [resumeRequest, requestObjects, unlock_objects]
      intro o ho
      simp [MixRequest.objects, madeBy, Task.call?, MixRequest.call?, EngineCall.creates?, objects,
        SharedMix.objects] at ho ⊢
      grind
    | error => simp [resumeRequest, requestObjects, MixRequest.objects]
  | undoing pipeline fault => simp [resumeRequest, requestObjects]

end MixCell
namespace Coordinator
variable (c : Coordinator) (n : Negotiation) (fault : NegotiationFault) (e : Entry)

@[simp] theorem settle_registry : (c.settle e).registry = c.registry := by
  unfold settle
  split <;> rfl

@[simp] theorem settle_mix : (c.settle e).mix = c.mix := by
  unfold settle
  split <;> rfl

@[simp] theorem reject_registry (s : SessionId) (role : Role) :
    (c.reject s role fault).2.registry = c.registry := by
  unfold reject
  split <;> rfl

@[simp] theorem reject_mix (s : SessionId) (role : Role) : (c.reject s role fault).2.mix = c.mix := by
  unfold reject
  split <;> rfl

@[simp] theorem countRelease_registry (task : Task) (reply : Reply) :
    (c.countRelease task reply).registry = c.registry := by
  unfold countRelease
  split <;> rfl

@[simp] theorem countRelease_mix (task : Task) (reply : Reply) :
    (c.countRelease task reply).mix = c.mix := by
  unfold countRelease
  split <;> rfl

@[simp] theorem giveUp_registry (objects : List ObjectId) :
    (c.giveUp n fault e objects).coordinator.registry = c.registry := by
  cases objects with
  | nil => cases h : e.stopped <;> simp [giveUp, h]
  | cons => rfl

@[simp] theorem giveUp_mix (objects : List ObjectId) :
    (c.giveUp n fault e objects).coordinator.mix = c.mix := by
  cases objects with
  | nil => cases h : e.stopped <;> simp [giveUp, h]
  | cons => rfl

theorem giveUp_gaveUp (objects : List ObjectId) : (c.giveUp n fault e objects).task.gaveUp := by
  cases objects <;> rfl

theorem giveUp_ongoing? (objects : List ObjectId) :
    (c.giveUp n fault e objects).task.ongoing? =
      match objects with
      | [] => none
      | o :: rest => some (.negotiation n (.releasing fault e o rest)) := by
  cases objects <;> rfl

end Coordinator

namespace NegotiationStage

theorem asks_of_seeksMix {stage : NegotiationStage} (h : stage.seeksMix) (n : Negotiation)
    (reply : Option Reply) : stage.asks n reply = none := by
  cases stage <;> first | rfl | cases h

theorem isLive_of_seeksMix {stage : NegotiationStage} (h : stage.seeksMix) : stage.isLive := by
  cases stage <;> first | rfl | cases h

theorem not_takes_of_asks {stage : NegotiationStage} {n : Negotiation} {reply : Option Reply}
    {call : Registry.Call} (h : stage.asks n reply = some call) : ¬ call.takes := by
  unfold asks at h
  split at h <;> first | (cases h; exact Bool.false_ne_true) | cases h

theorem handedOut_asks (r : Registry) (n : Negotiation) (stage : NegotiationStage)
    (reply : Option Reply) (call : Registry.Call) :
    Registry.handedOut (r.log ((stage.asks n reply).toList ++ [call])) =
      (Registry.Deed.mk (r.after (stage.asks n reply).toList) call).handedOut := by
  rw [Registry.log_append, Registry.handedOut_append]
  cases h : stage.asks n reply with
  | none => rfl
  | some asked =>
    have hno : (Registry.Deed.mk r asked).handedOut = [] :=
      Registry.Deed.handedOut_eq_nil (not_takes_of_asks h)
    simp [Registry.handedOut, Registry.log, hno]

end NegotiationStage

namespace Coordinator
variable (c : Coordinator) (n : Negotiation) (fault : NegotiationFault)

theorem abort_registry :
    (c.abort n fault).coordinator.registry = c.registry.next (.remove n.session n.attempt) := by
  rw [Registry.next_remove]
  unfold abort
  split <;> simp_all

theorem abort_mix : (c.abort n fault).coordinator.mix = c.mix := by
  unfold abort
  split <;> simp

/-- A negotiation whose endpoint is connected drains its queue, unless it was stopped. -/
theorem connected_cases (endpoint : Endpoint) (port : MixerPort) (text : String) :
    (c.registry.check n.session n.attempt = .ok () ∧
      c.resume n (.connecting endpoint port) (.ok text) = c.drain n endpoint) ∨
    ∃ fault, c.registry.check n.session n.attempt = .error fault ∧
      c.resume n (.connecting endpoint port) (.ok text) = c.abort n fault := by
  cases hcheck : c.registry.check n.session n.attempt with
  | ok => exact .inl ⟨rfl, by simp only [resume, hcheck]⟩
  | error fault => exact .inr ⟨fault, rfl, by simp only [resume, hcheck]⟩

theorem abort_gaveUp : (c.abort n fault).task.gaveUp := by
  unfold abort
  split
  · exact giveUp_gaveUp _ _ _ _ _
  · rfl

theorem abort_disposes :
    Disposes none (Registry.Deed.mk c.registry (.remove n.session n.attempt)).handedOut
      (c.abort n fault).task.ongoing? := by
  rw [Registry.Deed.handedOut_remove]
  unfold abort
  cases h : c.registry.remove n.session n.attempt with
  | mk removed registry =>
    cases removed with
    | none => exact .ends (by simp) (by simp) (by simp [Progress.ongoing?])
    | some e =>
      simp only [giveUp_ongoing?]
      cases ho : e.objects with
      | nil => exact .ends (by simp) (by simpa using ho) (by simp)
      | cons o rest => exact .first ho rfl

theorem abort_mixObjects : ∀ task ∈ (c.abort n fault).task.ongoing?,
    task.mixObjects = n.snapshot.toList.flatMap SharedMix.objects := by
  unfold abort
  split
  · simp only [giveUp_ongoing?]
    split
    · simp
    · simp [Task.mixObjects, NegotiationStage.mixObjects]
  · simp [Progress.ongoing?]

end Coordinator

namespace Broadcast

/-- What has to be known of a step of a negotiation. -/
abbrev Negotiates (c : Coordinator) (n : Negotiation) (stage : NegotiationStage) (reply : Option Reply)
    (result : StepResult) : Prop :=
  Follows c (some (.negotiation n stage)) reply (negotiationCalls n stage reply result) result

theorem mix_subset_held (m : MixCell) (task : Option Task) (more : List (ObjectKind × ObjectId)) :
    m.objects ⊆ held m task ++ more :=
  List.subset_append_of_subset_left _ (List.subset_append_left _ _)

theorem mix_subset_held_of_eq {m m' : MixCell} (h : m' = m) (task : Option Task)
    (more : List (ObjectKind × ObjectId)) : m'.objects ⊆ held m task ++ more :=
  h ▸ mix_subset_held m task more

theorem stage_subset_held (m : MixCell) (n : Negotiation) (stage : NegotiationStage)
    (more : List (ObjectKind × ObjectId)) :
    stage.mixObjects ⊆ held m (some (.negotiation n stage)) ++ more := by
  intro o ho
  simp [held, Task.mixObjects, ho]

section Steps
variable {c c' : Coordinator} {n : Negotiation} {stage : NegotiationStage} {reply : Option Reply}

theorem abort_negotiates (hlive : stage.isLive)
    (hask : ∀ call ∈ stage.asks n reply, call.stores ∨ c.registry.next call = c.registry)
    (hreg : c'.registry = c.registry.after (stage.asks n reply).toList)
    (hmix : c'.mix.objects ⊆ held c.mix (some (.negotiation n stage)) ++
      brought (some (.negotiation n stage)) reply) (fault : NegotiationFault) :
    Negotiates c n stage reply (c'.abort n fault) := by
  have hcalls : negotiationCalls n stage reply (c'.abort n fault) =
      (stage.asks n reply).toList ++ [.remove n.session n.attempt] := by
    unfold negotiationCalls
    rw [if_pos (c'.abort_gaveUp n fault)]
  unfold Negotiates
  rw [hcalls]
  refine ⟨?_, .givesUp hlive hask ?_, ?_⟩
  · rw [Coordinator.abort_registry, hreg, Registry.after_append]
  · rw [NegotiationStage.handedOut_asks, ← hreg]
    exact c'.abort_disposes n fault
  · intro o ho
    rcases List.mem_append.mp ho with ho | ho
    · rw [Coordinator.abort_mix] at ho
      exact hmix ho
    · obtain ⟨task, ht, ho⟩ := List.mem_flatMap.mp ho
      rw [c'.abort_mixObjects n fault task (Option.mem_toList.mp ht)] at ho
      simp [held, Task.mixObjects, ho]

/-- A negotiation that gives up and has nothing to ask of the registry before. -/
theorem abortUnasked_negotiates (hask : stage.asks n reply = none) (hlive : stage.isLive)
    (hreg : c'.registry = c.registry)
    (hmix : c'.mix.objects ⊆ held c.mix (some (.negotiation n stage)) ++
      brought (some (.negotiation n stage)) reply) (fault : NegotiationFault) :
    Negotiates c n stage reply (c'.abort n fault) := by
  refine abort_negotiates hlive ?_ ?_ hmix fault
  · simp [hask]
  · rw [hask]
    exact hreg

theorem advance_negotiates {stage' : NegotiationStage} {notices : List Notice}
    (hlive' : stage'.isLive)
    (hreg : c'.registry = c.registry.after (stage.asks n reply).toList)
    (hmove : Move c.registry (some (.negotiation n stage)) reply (stage.asks n reply).toList
      (some (.negotiation n stage')))
    (hmix : c'.mix.objects ⊆ held c.mix (some (.negotiation n stage)) ++
      brought (some (.negotiation n stage)) reply)
    (hstage : stage'.mixObjects ⊆ held c.mix (some (.negotiation n stage)) ++
      brought (some (.negotiation n stage)) reply) :
    Negotiates c n stage reply ⟨c', notices, .ongoing (.negotiation n stage')⟩ := by
  have hcalls : negotiationCalls n stage reply ⟨c', notices, .ongoing (.negotiation n stage')⟩ =
      (stage.asks n reply).toList := by
    simp [negotiationCalls, Progress.gaveUp, hlive']
  unfold Negotiates
  rw [hcalls]
  refine ⟨hreg, hmove, ?_⟩
  intro o ho
  rcases List.mem_append.mp ho with ho | ho
  · exact hmix ho
  · simp only [Progress.ongoing?, Option.toList_some, List.flatMap_singleton, Task.mixObjects] at ho
    rcases List.mem_append.mp ho with ho | ho
    · simp [held, Task.mixObjects, ho]
    · exact hstage ho

/-- A negotiation that only checks whether it may go on. -/
theorem advanceChecked_negotiates {stage' : NegotiationStage}
    (hask : stage.asks n reply = none) (hlive : stage.isLive) (hlive' : stage'.isLive)
    (hreg : c'.registry = c.registry)
    (hmove : Move c.registry (some (.negotiation n stage)) reply [] (some (.negotiation n stage')))
    (hmix : c'.mix.objects ⊆ held c.mix (some (.negotiation n stage)) ++
      brought (some (.negotiation n stage)) reply)
    (hstage : stage'.mixObjects ⊆ held c.mix (some (.negotiation n stage)) ++
      brought (some (.negotiation n stage)) reply) :
    Negotiates c n stage reply (c'.advanceChecked n stage') := by
  unfold Coordinator.advanceChecked
  split
  · exact advance_negotiates hlive' (by rw [hask]; exact hreg) (by rw [hask]; exact hmove) hmix hstage
  · exact abortUnasked_negotiates hask hlive hreg hmix _

/-- A negotiation that was told by its request for the mix how things stand. -/
theorem afterMix_negotiates (hseeks : stage.seeksMix) {step : MixCell.RequestStep}
    (hmix : step.2.objects ++ MixCell.requestObjects step.1 ⊆
      held c.mix (some (.negotiation n stage)) ++ brought (some (.negotiation n stage)) reply)
    (hreg : c'.registry = c.registry) :
    Negotiates c n stage reply (c'.afterMix n step) := by
  have hask := NegotiationStage.asks_of_seeksMix hseeks n reply
  have hlive := NegotiationStage.isLive_of_seeksMix hseeks
  obtain ⟨hcell, hobjects⟩ := List.append_subset.mp hmix
  unfold Coordinator.afterMix
  split
  · exact advance_negotiates rfl (by rw [hask]; exact hreg) (by rw [hask]; exact .waits hseeks)
      hcell hobjects
  · exact advanceChecked_negotiates hask hlive rfl hreg (.obtains hseeks) hcell hobjects
  · refine abortUnasked_negotiates hask hlive ?_ hcell _
    exact hreg

theorem start_negotiates (t : TaskId) (n : Negotiation) :
    Negotiates c n .prepared none (c.start t n) := by
  unfold Coordinator.start
  split
  · rename_i shared hshared
    apply advanceChecked_negotiates (by rfl) (by rfl) (by rfl) rfl (.obtains (by rfl))
    · exact mix_subset_held _ _ _
    · intro o ho
      simp [held, Task.mixObjects, hshared, show o ∈ shared.objects from ho]
  · apply afterMix_negotiates (by rfl) _ rfl
    exact fun o ho => mix_subset_held _ _ _ (c.mix.request_objects t ho)

theorem drain_negotiates {endpoint : Endpoint} {text : String} (hdrains : stage.Drains endpoint)
    (hreg : c'.registry = c.registry) (hmix : c'.mix = c.mix) :
    Negotiates c n stage (some (.ok text)) (c'.drain n endpoint) := by
  have hask : stage.asks n (some (.ok text)) = some (.nextCandidate n.session n.attempt) := by
    cases hdrains <;> rfl
  have hlive : stage.isLive := by cases hdrains <;> rfl
  unfold Coordinator.drain
  rw [hreg]
  cases h : c.registry.nextCandidate n.session n.attempt with
  | error fault =>
    have hnext : c.registry.next (.nextCandidate n.session n.attempt) = c.registry := by
      simp only [Registry.next, Registry.perform, h]
    refine abort_negotiates hlive ?_ ?_ (mix_subset_held_of_eq hmix _ _) _
    · simp [hask, hnext]
    · rw [hask, hreg]
      exact hnext.symm
  | ok popped =>
    obtain ⟨candidate, registry⟩ := popped
    have hnext : c.registry.next (.nextCandidate n.session n.attempt) = registry := by
      simp only [Registry.next, Registry.perform, h]
    have hanswer : c.registry.answer (.nextCandidate n.session n.attempt) = .candidate candidate := by
      simp only [Registry.answer, Registry.perform, h]
    cases candidate with
    | some candidate =>
      refine advance_negotiates rfl ?_ ?_ (mix_subset_held_of_eq hmix _ _) (by simp [NegotiationStage.mixObjects])
      · rw [hask]
        exact hnext.symm
      · rw [hask]
        exact .applying hdrains hanswer
    | none =>
      refine advance_negotiates rfl ?_ ?_ (mix_subset_held_of_eq hmix _ _) (by simp [NegotiationStage.mixObjects])
      · rw [hask]
        exact hnext.symm
      · rw [hask]
        exact .drained hdrains hanswer

theorem endpointMade_negotiates (hreg : c'.registry = c.registry) (hmix : c'.mix = c.mix)
    (mix : SharedMix) (id : String) :
    Negotiates c n (.creatingEndpoint mix) (some (.ok id)) (c'.endpointMade n mix ⟨⟨id⟩⟩) := by
  have hstores : ∀ call ∈ NegotiationStage.asks n (.creatingEndpoint mix) (some (.ok id)),
      call.stores ∨ c.registry.next call = c.registry := by
    simp [NegotiationStage.asks, Registry.Call.stores]
  have hanswer := c.registry.answer_setEndpoint n.session n.attempt ⟨⟨id⟩⟩
  have hnext := c.registry.next_setEndpoint n.session n.attempt ⟨⟨id⟩⟩
  unfold Coordinator.endpointMade
  rw [hreg]
  cases h : c.registry.setEndpoint n.session n.attempt ⟨⟨id⟩⟩ with
  | mk result registry =>
    rw [h] at hanswer hnext
    cases result with
    | error fault =>
      dsimp only
      refine abort_negotiates (by rfl) hstores ?_ ?_ fault
      · exact hnext.symm
      · exact mix_subset_held_of_eq hmix _ _
    | ok =>
      dsimp only
      split
      · exact advance_negotiates (by rfl) hnext.symm (.endpointMade hanswer) (mix_subset_held_of_eq hmix _ _)
          (stage_subset_held _ _ (.creatingEndpoint mix) _)
      · refine abort_negotiates (by rfl) hstores ?_ ?_ _
        · exact hnext.symm
        · exact mix_subset_held_of_eq hmix _ _

theorem portMade_negotiates (hreg : c'.registry = c.registry) (hmix : c'.mix = c.mix)
    (mix : SharedMix) (endpoint : Endpoint) (id : String) :
    Negotiates c n (.creatingPort mix endpoint) (some (.ok id)) (c'.portMade n endpoint ⟨⟨id⟩⟩) := by
  have hstores : ∀ call ∈ NegotiationStage.asks n (.creatingPort mix endpoint) (some (.ok id)),
      call.stores ∨ c.registry.next call = c.registry := by
    simp [NegotiationStage.asks, Registry.Call.stores]
  have hanswer := c.registry.answer_setPort n.session n.attempt ⟨⟨id⟩⟩
  have hnext := c.registry.next_setPort n.session n.attempt ⟨⟨id⟩⟩
  unfold Coordinator.portMade
  rw [hreg]
  cases h : c.registry.setPort n.session n.attempt ⟨⟨id⟩⟩ with
  | mk result registry =>
    rw [h] at hanswer hnext
    cases result with
    | error fault =>
      dsimp only
      refine abort_negotiates (by rfl) hstores ?_ ?_ fault
      · exact hnext.symm
      · exact mix_subset_held_of_eq hmix _ _
    | ok =>
      exact advance_negotiates (by rfl) hnext.symm (.portMade hanswer) (mix_subset_held_of_eq hmix _ _)
        (by simp [NegotiationStage.mixObjects])

theorem complete_negotiates (hreg : c'.registry = c.registry) (hmix : c'.mix = c.mix)
    (endpoint : Endpoint) (answer text : String) :
    Negotiates c n (.gathering endpoint answer) (some (.ok text)) (c'.complete n answer) := by
  unfold Coordinator.complete
  rw [hreg]
  cases h : c.registry.finish n.session n.attempt with
  | error fault =>
    have hnext : c.registry.next (.finish n.session n.attempt) = c.registry := by
      simp only [Registry.next, Registry.perform, h]
    refine abort_negotiates (by rfl) ?_ ?_ (mix_subset_held_of_eq hmix _ _) fault
    · simp [NegotiationStage.asks, hnext]
    · exact hreg.trans hnext.symm
  | ok registry =>
    have hnext : c.registry.next (.finish n.session n.attempt) = registry := by
      simp only [Registry.next, Registry.perform, h]
    have hanswer : c.registry.answer (.finish n.session n.attempt) = .granted := by
      simp only [Registry.answer, Registry.perform, h]
    refine ⟨hnext.symm, .completes hanswer, ?_⟩
    intro o ho
    refine mix_subset_held_of_eq hmix _ _ ?_
    simpa [held, Progress.ongoing?] using ho

theorem answered_negotiates (hreg : c'.registry = c.registry) (hmix : c'.mix = c.mix)
    (endpoint : Endpoint) (answer : String) :
    Negotiates c n (.offering endpoint) (some (.ok answer)) (c'.answered n endpoint answer) := by
  unfold Coordinator.answered
  split
  · exact advance_negotiates (by rfl) hreg (.goesOn .offering (.gathering answer)) (mix_subset_held_of_eq hmix _ _)
      (by simp [NegotiationStage.mixObjects])
  · exact abortUnasked_negotiates (by rfl) (by rfl) hreg (mix_subset_held_of_eq hmix _ _) _

theorem connected_negotiates (hreg : c'.registry = c.registry) (hmix : c'.mix = c.mix)
    (endpoint : Endpoint) (port : MixerPort) (text : String) :
    Negotiates c n (.connecting endpoint port) (some (.ok text))
      (c'.resume n (.connecting endpoint port) (.ok text)) := by
  rcases c'.connected_cases n endpoint port text with ⟨_, hresume⟩ | ⟨fault, hcheck, hresume⟩
  · rw [hresume]
    exact drain_negotiates (.connecting port) hreg hmix
  · rw [hreg] at hcheck
    rw [hresume]
    have hnext := c.registry.next_nextCandidate_of_check _ _ hcheck
    refine abort_negotiates (by rfl) ?_ ?_ ?_ fault
    · simp [NegotiationStage.asks, hnext]
    · exact hreg.trans hnext.symm
    · exact mix_subset_held_of_eq hmix _ _

theorem resume_negotiates (hreg : c'.registry = c.registry) (hmix : c'.mix = c.mix)
    (hlive : stage.isLive) (hcall : (stage.call? n).isSome) (reply : Reply) :
    Negotiates c n stage (some reply) (c'.resume n stage reply) := by
  cases stage with
  | prepared => cases hcall
  | releasing => cases hlive
  | obtainingMix request =>
    refine afterMix_negotiates (by rfl) ?_ hreg
    intro o ho
    have hknown := c'.mix.resumeRequest_objects request reply ho
    rw [hmix] at hknown
    rcases List.mem_append.mp hknown with hknown | hmade
    · refine List.mem_append_left _ ?_
      simp only [held, Task.mixObjects, NegotiationStage.mixObjects, Option.toList_some,
        List.flatMap_singleton, List.mem_append] at hknown ⊢
      tauto
    · refine List.mem_append_right _ ?_
      cases reply <;> exact hmade
  | creatingEndpoint mix =>
    cases reply with
    | ok id => exact endpointMade_negotiates hreg hmix mix id
    | error fault =>
      exact abortUnasked_negotiates (by rfl) (by rfl) hreg (mix_subset_held_of_eq hmix _ _) _
  | creatingPort mix endpoint =>
    cases reply with
    | ok id => exact portMade_negotiates hreg hmix mix endpoint id
    | error fault =>
      exact abortUnasked_negotiates (by rfl) (by rfl) hreg (mix_subset_held_of_eq hmix _ _) _
  | connecting endpoint port =>
    cases reply with
    | ok text => exact connected_negotiates hreg hmix endpoint port text
    | error fault =>
      exact abortUnasked_negotiates (by rfl) (by rfl) hreg (mix_subset_held_of_eq hmix _ _) _
  | applying endpoint candidate =>
    cases reply with
    | ok text => exact drain_negotiates (.applying candidate) hreg hmix
    | error fault =>
      exact abortUnasked_negotiates (by rfl) (by rfl) hreg (mix_subset_held_of_eq hmix _ _) _
  | subscribing endpoint =>
    cases reply with
    | ok text =>
      exact advanceChecked_negotiates (by rfl) (by rfl) (by rfl) hreg
        (.goesOn .subscribing .offering) (mix_subset_held_of_eq hmix _ _) (by simp [NegotiationStage.mixObjects])
    | error fault =>
      exact abortUnasked_negotiates (by rfl) (by rfl) hreg (mix_subset_held_of_eq hmix _ _) _
  | offering endpoint =>
    cases reply with
    | ok answer => exact answered_negotiates hreg hmix endpoint answer
    | error fault =>
      exact abortUnasked_negotiates (by rfl) (by rfl) hreg (mix_subset_held_of_eq hmix _ _) _
  | gathering endpoint answer =>
    cases reply with
    | ok text => exact complete_negotiates hreg hmix endpoint answer text
    | error fault =>
      exact abortUnasked_negotiates (by rfl) (by rfl) hreg (mix_subset_held_of_eq hmix _ _) _

end Steps

end Broadcast

end Rostrum
