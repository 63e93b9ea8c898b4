import Rostrum.Proofs.Broadcast.History

/-!
# How a negotiation behaves

`Conducts` says what a step of a negotiation tells the client, what it counts and where it leads, with
what was checked before. Beyond its request for the mix a negotiation goes on only if its session was
not stopped; otherwise it gives up, and it always finds its entry when it does.
-/

namespace Rostrum

namespace NegotiationStage

/-- What the client is told when a negotiation comes to a stage. -/
def announces (n : Negotiation) : NegotiationStage → List Notice
  | .gathering _ answer => [⟨n.session, .accepted n.role answer⟩]
  | _ => []

/-- Whether the client has its answer while the engine searches for candidates. -/
def gathers : NegotiationStage → Bool
  | .gathering _ _ => true
  | _ => false

theorem gathers_of_seeksMix {stage : NegotiationStage} (h : stage.seeksMix) : stage.gathers = false := by
  cases stage <;> first | rfl | cases h

theorem announces_of_quiet {n : Negotiation} {stage : NegotiationStage} (h : stage.gathers = false) :
    stage.announces n = [] := by
  cases stage <;> first | rfl | cases h

end NegotiationStage

namespace Broadcast

/-- What a step of a negotiation that was not given up can do. -/
inductive Conducts (c : Coordinator) (n : Negotiation) (stage : NegotiationStage)
    (reply : Option Reply) : StepResult → Prop where
  | waits {c' : Coordinator} {request} : stage.seeksMix → (stage = .prepared → n.snapshot = none) →
      c'.metrics.negotiations = c.metrics.negotiations →
      Conducts c n stage reply ⟨c', [], .ongoing (.negotiation n (.obtainingMix request))⟩
  | goesOn {c' : Coordinator} (stage' : NegotiationStage) :
      (c.registry.running? n.session n.attempt).isSome → stage.gathers = false →
      stage'.isLive → stage'.seeksMix = false →
      c'.metrics.negotiations = c.metrics.negotiations →
      Conducts c n stage reply ⟨c', stage'.announces n, .ongoing (.negotiation n stage')⟩
  | completes {c' : Coordinator} {endpoint answer text} : stage = .gathering endpoint answer →
      reply = some (.ok text) → (c.registry.running? n.session n.attempt).isSome →
      (∃ e, c'.registry.attempt? n.session n.attempt = some e ∧ e.phase = .ready) →
      c'.metrics.negotiations =
        (c.metrics.countNegotiation (Coordinator.labels n.role .accepted)).negotiations →
      Conducts c n stage reply ⟨c', [], .done (.negotiated (.ok answer))⟩
  | givesUp {c' : Coordinator} {fault : NegotiationFault} {e : Entry} :
      (c.registry.after (stage.asks n reply).toList).attempt? n.session n.attempt = some e →
      (e.stopped ↔ c.registry.running? n.session n.attempt = none) →
      (fault = .stopped → e.stopped) →
      (stage.gathers → fault ≠ .stopped → ∃ f, reply = some (.error f) ∧ fault = .engine f) →
      c'.metrics.negotiations = c.metrics.negotiations →
      Conducts c n stage reply (c'.giveUp n fault e e.objects)

end Broadcast

namespace Registry

theorem attempt?_remove {r : Registry} {s : SessionId} {a : Attempt} {e : Entry}
    (h : r.attempt? s a = some e) : (r.remove s a).1 = some e := by
  unfold attempt? at h
  unfold remove
  split <;> simp_all

theorem check_eq_ok_iff {r : Registry} {s : SessionId} {a : Attempt} :
    r.check s a = .ok () ↔ (r.running? s a).isSome := by
  unfold check
  split <;> simp_all

theorem check_eq_error {r : Registry} {s : SessionId} {a : Attempt} {fault : NegotiationFault}
    (h : r.check s a = .error fault) : r.running? s a = none := by
  unfold check at h
  split at h
  · cases h
  · rename_i hno
    exact Option.not_isSome_iff_eq_none.mp hno

/-- Something is noted without a fault only if the session was not stopped. -/
theorem note_spec (r : Registry) (s : SessionId) (a : Attempt) (f : Entry → Entry) :
    ((r.note s a f).1 = .ok () ∧ (r.running? s a).isSome) ∨
      ((r.note s a f).1 = .error .stopped ∧ r.running? s a = none) := by
  unfold note running?
  cases h : r.attempt? s a with
  | none => exact Or.inr ⟨rfl, rfl⟩
  | some e => cases hs : e.stopped <;> simp [hs]

end Registry

namespace Coordinator

theorem abort_eq {c : Coordinator} {n : Negotiation} {e : Entry}
    (h : c.registry.attempt? n.session n.attempt = some e) (fault : NegotiationFault) :
    c.abort n fault =
      { c with registry := (c.registry.remove n.session n.attempt).2 }.giveUp n fault e e.objects := by
  have hremoved := Registry.attempt?_remove h
  unfold abort
  split <;> simp_all

theorem countNegotiation_congr {c c' : Coordinator}
    (h : c'.metrics.negotiations = c.metrics.negotiations) (n : Negotiation) (verdict : Verdict) :
    ((c'.metrics.addActive n.role.text 1).countNegotiation (labels n.role verdict)).negotiations =
      (c.metrics.countNegotiation (labels n.role verdict)).negotiations := by
  have hactive : (c'.metrics.addActive n.role.text 1).negotiations = c.metrics.negotiations := by
    rw [← h]
    unfold Metrics.addActive
    split
    · rfl
    · split <;> rfl
  simp only [Metrics.countNegotiation, Metrics.counted, hactive]

theorem mixGone_ne_stopped (role : Role) : mixGone role ≠ .stopped := by
  cases role <;> exact fun h => by cases h

@[simp] theorem countRelease_negotiations (c : Coordinator) (task : Task) (reply : Reply) :
    (c.countRelease task reply).metrics.negotiations = c.metrics.negotiations := by
  unfold countRelease
  split <;> rfl

end Coordinator

namespace Broadcast
section Steps
variable {c c' : Coordinator} (w : c.registry.WellFormed) {n : Negotiation} {stage : NegotiationStage}
  (h : HasEntry c.registry n stage) {reply : Option Reply}
  (hcounts : c'.metrics.negotiations = c.metrics.negotiations)
include w h hcounts

theorem abort_conducts (hreg : c'.registry = c.registry.after (stage.asks n reply).toList)
    {fault : NegotiationFault}
    (hstopped : fault = .stopped → c.registry.running? n.session n.attempt = none)
    (hgathers : stage.gathers → fault ≠ .stopped →
      ∃ f, reply = some (.error f) ∧ fault = .engine f) :
    Conducts c n stage reply (c'.abort n fault) := by
  obtain ⟨e, he, hflag⟩ := h.asks w reply
  rw [Coordinator.abort_eq (hreg ▸ he)]
  exact .givesUp he hflag (fun hf => hflag.mpr (hstopped hf)) hgathers hcounts

/-- The engine failed. -/
theorem abortEngine_conducts (hreg : c'.registry = c.registry)
    (hasks : stage.asks n reply = none) {f : EngineFault}
    (hreply : stage.gathers → reply = some (.error f)) :
    Conducts c n stage reply (c'.abort n (.engine f)) := by
  refine abort_conducts w h hcounts ?_ (fun hf => by cases hf) fun hg _ => ⟨f, hreply hg, rfl⟩
  rw [hasks]
  exact hreg

/-- A check failed, and nothing was asked of the registry before. -/
theorem abortStopped_conducts (hreg : c'.registry = c.registry)
    (hnext : ∀ call ∈ stage.asks n reply, c.registry.next call = c.registry)
    (hnone : c.registry.running? n.session n.attempt = none) :
    Conducts c n stage reply (c'.abort n .stopped) := by
  refine abort_conducts w h hcounts ?_ (fun _ => hnone) fun _ hf => (hf rfl).elim
  cases hasks : stage.asks n reply with
  | none => exact hreg
  | some call => exact hreg.trans (hnext call hasks).symm

theorem advanceChecked_conducts {stage' : NegotiationStage} (hreg : c'.registry = c.registry)
    (hasks : stage.asks n reply = none) (hgathers : stage.gathers = false) (hlive : stage'.isLive)
    (hseeks : stage'.seeksMix = false) (hannounces : stage'.announces n = []) :
    Conducts c n stage reply (c'.advanceChecked n stage') := by
  unfold Coordinator.advanceChecked
  split
  · rename_i hcheck
    rw [hreg] at hcheck
    have hgo : Conducts c n stage reply ⟨c', stage'.announces n, .ongoing (.negotiation n stage')⟩ :=
      .goesOn stage' (Registry.check_eq_ok_iff.mp hcheck) hgathers hlive hseeks hcounts
    rwa [hannounces] at hgo
  · rename_i fault hcheck
    rw [hreg] at hcheck
    have hnone := Registry.check_eq_error hcheck
    refine abort_conducts w h hcounts ?_ (fun _ => hnone) ?_
    · rw [hasks]
      exact hreg
    · rw [hgathers]
      exact fun hg => by cases hg

theorem afterMix_conducts (hreg : c'.registry = c.registry) (hseeks : stage.seeksMix)
    (hsnapshot : stage = .prepared → n.snapshot = none) (step : MixCell.RequestStep) :
    Conducts c n stage reply (c'.afterMix n step) := by
  have hasks := NegotiationStage.asks_of_seeksMix hseeks n reply
  have hgathers := NegotiationStage.gathers_of_seeksMix hseeks
  unfold Coordinator.afterMix
  split
  · exact .waits hseeks hsnapshot hcounts
  · refine advanceChecked_conducts w h ?_ ?_ hasks hgathers (by rfl) (by rfl) (by rfl)
    · exact hcounts
    · exact hreg
  · refine abortEngine_conducts w h ?_ ?_ hasks ?_
    · exact hcounts
    · exact hreg
    · simp [hgathers]

/-- A negotiation that looks for the next candidate, after it was checked or not. -/
theorem drain_conducts {endpoint : Endpoint} {text : String} (hreg : c'.registry = c.registry)
    (hdrains : stage.Drains endpoint) : Conducts c n stage (some (.ok text)) (c'.drain n endpoint) := by
  have hask : stage.asks n (some (.ok text)) = some (.nextCandidate n.session n.attempt) := by
    cases hdrains <;> rfl
  have hgathers : stage.gathers = false := by cases hdrains <;> rfl
  unfold Coordinator.drain
  rw [hreg]
  rcases c.registry.nextCandidate_cases n.session n.attempt with
    ⟨hnone, hr⟩ | ⟨e, candidate, buffer, hrun, _, hr⟩ | ⟨e, hrun, _, hr⟩
  · have hnext : c.registry.next (.nextCandidate n.session n.attempt) = c.registry := by
      simp only [Registry.next, Registry.perform, hr]
    rw [hr]
    refine abortStopped_conducts w h hcounts hreg ?_ hnone
    rw [hask]
    rintro _ ⟨⟩
    exact hnext
  · rw [hr]
    exact .goesOn (.applying endpoint candidate) (by rw [hrun]; rfl) hgathers rfl rfl hcounts
  · rw [hr]
    exact .goesOn (.subscribing endpoint) (by rw [hrun]; rfl) hgathers rfl rfl hcounts

end Steps

section Stages
variable {c c' : Coordinator} (w : c.registry.WellFormed) {n : Negotiation} {stage : NegotiationStage}
  (hcounts : c'.metrics.negotiations = c.metrics.negotiations) (hreg : c'.registry = c.registry)
include w hcounts hreg

theorem endpointMade_conducts {mix : SharedMix} (h : HasEntry c.registry n (.creatingEndpoint mix))
    (id : String) :
    Conducts c n (.creatingEndpoint mix) (some (.ok id)) (c'.endpointMade n mix ⟨⟨id⟩⟩) := by
  have hnext := c.registry.next_setEndpoint n.session n.attempt ⟨⟨id⟩⟩
  have hnote := c.registry.note_spec n.session n.attempt fun e => { e with endpoint := some ⟨⟨id⟩⟩ }
  rw [← Registry.setEndpoint] at hnote
  unfold Coordinator.endpointMade
  rw [hreg]
  cases hset : c.registry.setEndpoint n.session n.attempt ⟨⟨id⟩⟩ with
  | mk result registry =>
    rw [hset] at hnext hnote
    rcases hnote with ⟨rfl, hrun⟩ | ⟨rfl, hnone⟩
    · dsimp only
      split
      · exact .goesOn (.creatingPort mix ⟨⟨id⟩⟩) hrun rfl rfl rfl hcounts
      · refine abort_conducts w h ?_ ?_ (fun hf => (Coordinator.mixGone_ne_stopped _ hf).elim)
          fun hg => by cases hg
        · exact hcounts
        · exact hnext.symm
    · refine abort_conducts w h ?_ ?_ (fun _ => hnone) fun hg => by cases hg
      · exact hcounts
      · exact hnext.symm

theorem portMade_conducts {mix : SharedMix} {endpoint : Endpoint}
    (h : HasEntry c.registry n (.creatingPort mix endpoint)) (id : String) :
    Conducts c n (.creatingPort mix endpoint) (some (.ok id)) (c'.portMade n endpoint ⟨⟨id⟩⟩) := by
  have hnext := c.registry.next_setPort n.session n.attempt ⟨⟨id⟩⟩
  have hnote := c.registry.note_spec n.session n.attempt fun e => { e with port := some ⟨⟨id⟩⟩ }
  rw [← Registry.setPort] at hnote
  unfold Coordinator.portMade
  rw [hreg]
  cases hset : c.registry.setPort n.session n.attempt ⟨⟨id⟩⟩ with
  | mk result registry =>
    rw [hset] at hnext hnote
    rcases hnote with ⟨rfl, hrun⟩ | ⟨rfl, hnone⟩
    · exact .goesOn (.connecting endpoint ⟨⟨id⟩⟩) hrun rfl rfl rfl hcounts
    · refine abort_conducts w h ?_ ?_ (fun _ => hnone) fun hg => by cases hg
      · exact hcounts
      · exact hnext.symm

theorem answered_conducts {endpoint : Endpoint} (h : HasEntry c.registry n (.offering endpoint))
    (answer : String) :
    Conducts c n (.offering endpoint) (some (.ok answer)) (c'.answered n endpoint answer) := by
  unfold Coordinator.answered
  rw [hreg]
  split
  · rename_i hcheck
    exact .goesOn (.gathering endpoint answer) (Registry.check_eq_ok_iff.mp hcheck) rfl rfl
      rfl hcounts
  · rename_i fault hcheck
    exact abort_conducts w h hcounts hreg (fun _ => Registry.check_eq_error hcheck)
      fun hg => by cases hg

theorem complete_conducts {endpoint : Endpoint} {answer : String}
    (h : HasEntry c.registry n (.gathering endpoint answer)) (text : String) :
    Conducts c n (.gathering endpoint answer) (some (.ok text)) (c'.complete n answer) := by
  unfold Coordinator.complete
  rw [hreg]
  rcases c.registry.finish_cases n.session n.attempt with ⟨hnone, hr⟩ | ⟨e, hrun, hr⟩
  · have hnext : c.registry.next (.finish n.session n.attempt) = c.registry := by
      simp only [Registry.next, Registry.perform, hr]
    rw [hr]
    refine abortStopped_conducts w h hcounts hreg ?_ hnone
    rintro _ ⟨⟩
    exact hnext
  · rw [hr]
    refine .completes rfl rfl (by rw [hrun]; rfl) ⟨{ e with phase := .ready }, ?_, rfl⟩ ?_
    · exact w.modifies_own (Registry.attempt?_of_running hrun) fun _ => rfl
    · exact Coordinator.countNegotiation_congr hcounts _ _

theorem connected_conducts {endpoint : Endpoint} {port : MixerPort}
    (h : HasEntry c.registry n (.connecting endpoint port)) (text : String) :
    Conducts c n (.connecting endpoint port) (some (.ok text))
      (c'.resume n (.connecting endpoint port) (.ok text)) := by
  rcases c'.connected_cases n endpoint port text with ⟨_, hresume⟩ | ⟨fault, hcheck, hresume⟩
  · rw [hresume]
    exact drain_conducts w h hcounts hreg (.connecting port)
  · rw [hreg] at hcheck
    rw [hresume]
    have hnext := c.registry.next_nextCandidate_of_check _ _ hcheck
    refine abort_conducts w h hcounts ?_ (fun _ => Registry.check_eq_error hcheck)
      fun hg => by cases hg
    exact hreg.trans hnext.symm

theorem resume_conducts (h : HasEntry c.registry n stage) (hlive : stage.isLive)
    (hcall : (stage.call? n).isSome) (reply : Reply) :
    Conducts c n stage (some reply) (c'.resume n stage reply) := by
  cases stage with
  | prepared => cases hcall
  | releasing => cases hlive
  | obtainingMix request =>
    exact afterMix_conducts w h hcounts hreg rfl (fun hs => by cases hs) _
  | creatingEndpoint mix =>
    cases reply with
    | ok id => exact endpointMade_conducts w hcounts hreg h id
    | error => exact abortEngine_conducts w h hcounts hreg rfl fun hg => by cases hg
  | creatingPort mix endpoint =>
    cases reply with
    | ok id => exact portMade_conducts w hcounts hreg h id
    | error => exact abortEngine_conducts w h hcounts hreg rfl fun hg => by cases hg
  | connecting endpoint port =>
    cases reply with
    | ok text => exact connected_conducts w hcounts hreg h text
    | error => exact abortEngine_conducts w h hcounts hreg rfl fun hg => by cases hg
  | applying endpoint candidate =>
    cases reply with
    | ok text => exact drain_conducts w h hcounts hreg (.applying candidate)
    | error => exact abortEngine_conducts w h hcounts hreg rfl fun hg => by cases hg
  | subscribing endpoint =>
    cases reply with
    | ok text => exact advanceChecked_conducts w h hcounts hreg rfl rfl rfl rfl rfl
    | error => exact abortEngine_conducts w h hcounts hreg rfl fun hg => by cases hg
  | offering endpoint =>
    cases reply with
    | ok answer => exact answered_conducts w hcounts hreg h answer
    | error => exact abortEngine_conducts w h hcounts hreg rfl fun hg => by cases hg
  | gathering endpoint answer =>
    cases reply with
    | ok text => exact complete_conducts w hcounts hreg h text
    | error => exact abortEngine_conducts w h hcounts hreg rfl fun _ => rfl

omit hcounts hreg in
theorem start_conducts (t : TaskId) (h : HasEntry c.registry n .prepared) :
    Conducts c n .prepared none (c.start t n) := by
  unfold Coordinator.start
  split
  · exact advanceChecked_conducts w h rfl rfl rfl rfl rfl rfl rfl
  · rename_i hnone
    exact afterMix_conducts w h rfl rfl rfl (fun _ => hnone) _

end Stages

/-- What a negotiation does in an episode. -/
theorem Episode.Occurs.conducts {x : Episode} (hx : x.Occurs) (h : x.before.Consistent)
    {n : Negotiation} {stage : NegotiationStage} (hwas : x.was = some (.negotiation n stage))
    (hlive : stage.isLive) : Conducts x.before.coordinator n stage x.action.reply? x.result := by
  have w := h.wellFormed
  have hentry := h.hasEntry_before (hx.taken h).task n stage hwas hlive
  cases hx with
  | request => cases hwas
  | @turn b t task ht hturn =>
    cases hwas
    cases stage with
    | prepared => exact start_conducts w t hentry
    | obtainingMix request =>
      cases request with
      | waiting => exact afterMix_conducts w hentry rfl rfl rfl (fun hs => by cases hs) _
      | _ => cases hturn
    | connecting =>
      have hcall := call?_of_hasTurn hturn
      cases hrole : n.role <;> simp [Task.call?, NegotiationStage.call?, hrole] at hcall
    | _ => cases hturn
  | @reply b t task call reply ht hcall hadmits =>
    cases hwas
    refine resume_conducts w (b.coordinator.countRelease_negotiations _ reply)
      (b.coordinator.countRelease_registry _ reply) hentry hlive ?_ reply
    exact Option.isSome_of_eq_some hcall

/-! ## A task stays what it is -/

/-- What a request leaves to be done. -/
inductive Begins : Request → Task → Prop where
  | prepare {s role offer a snapshot} :
      Begins (.prepare s role offer) (.negotiation ⟨s, a, role, offer, snapshot⟩ .prepared)
  | stop {s leaving d} : Begins (.stop s leaving) (.stop s leaving d)
  | submit {s c endpoint c'} : Begins (.submit s c) (.apply s endpoint c')
  | shutdown {order stage} : Begins (.shutdown order) (.shutdown stage)
  | requestMix {stage} : Begins .requestMix (.mixRequest stage)
  | withdrawMix {stage} : Begins .withdrawMix (.mixWithdrawal stage)

/-- A task and what a step may leave of it. -/
inductive Continues : Task → Task → Prop where
  | negotiation {n stage stage'} : Continues (.negotiation n stage) (.negotiation n stage')
  | stop {s leaving d d'} : Continues (.stop s leaving d) (.stop s leaving d')
  | shutdown {stage stage'} : Continues (.shutdown stage) (.shutdown stage')
  | mixRequest {stage stage'} : Continues (.mixRequest stage) (.mixRequest stage')
  | mixWithdrawal {stage stage'} : Continues (.mixWithdrawal stage) (.mixWithdrawal stage')

/-- A shutdown that has something left to do is taking a session down, or it withdraws the mix. -/
theorem shutdownFrom_left (t : TaskId) (order : List SessionId) (c : Coordinator) :
    (∃ d left, (c.shutdownFrom t order).task = .ongoing (.shutdown (.stopping d left))) ∨
      ∃ c' : Coordinator, c'.mix = c.mix ∧ c.shutdownFrom t order = c'.shutdownMix t := by
  induction order generalizing c with
  | nil => exact Or.inr ⟨c, rfl, rfl⟩
  | cons s left ih =>
    have hmix := c.stop_mix s
    unfold Coordinator.shutdownFrom
    generalize c.stop s = stopped at hmix
    obtain ⟨d | _, c'⟩ := stopped
    · exact Or.inl ⟨d, left, rfl⟩
    · rcases ih c' with h | ⟨c'', hmix', h⟩
      · exact Or.inl h
      · exact Or.inr ⟨c'', hmix'.trans hmix, h⟩

theorem shutdownFrom_task {t : TaskId} {order : List SessionId} {c : Coordinator} {task : Task}
    (h : (c.shutdownFrom t order).task.ongoing? = some task) : ∃ stage, task = .shutdown stage := by
  rcases shutdownFrom_left t order c with ⟨d, left, hleft⟩ | ⟨c', _, hmix⟩
  · rw [hleft] at h
    exact ⟨_, (Option.some.inj h).symm⟩
  · rw [hmix, Coordinator.shutdownMix] at h
    generalize c'.mix.withdraw t = step at h
    obtain ⟨stage | existed, m⟩ := step
    · exact ⟨_, (Option.some.inj h).symm⟩
    · cases h

/-- A request for a role leaves a negotiation behind without a word, or it is refused at once. -/
theorem prepare_spec (c : Coordinator) (s : SessionId) (role : Role) (offer : String) :
    (∃ a snapshot c', c.prepare s role offer = (.ok ⟨s, a, role, offer, snapshot⟩, [], c') ∧
      c'.metrics = c.metrics) ∨
    ∃ fault, c.prepare s role offer = (.error fault, [⟨s, .rejected role fault.message⟩],
      { c with metrics := c.metrics.countNegotiation (Coordinator.labels role .rejected) }) := by
  have hrefused : ∀ fault : NegotiationFault, fault ≠ .stopped →
      c.reserve s role offer = .error fault →
      c.prepare s role offer = (.error fault, [⟨s, .rejected role fault.message⟩],
        { c with metrics := c.metrics.countNegotiation (Coordinator.labels role .rejected) }) := by
    intro fault hne hreserve
    simp [Coordinator.prepare, hreserve, Coordinator.reject, NegotiationFault.isReported, hne]
  cases hsnapshot : c.snapshot s role with
  | error fault =>
    refine Or.inr ⟨fault, hrefused fault ?_ ?_⟩
    · rintro rfl
      cases role with
      | presenter => cases hsnapshot
      | viewer =>
        simp only [Coordinator.snapshot] at hsnapshot
        split at hsnapshot
        · cases hsnapshot
        · split at hsnapshot <;> cases hsnapshot
    · simp only [Coordinator.reserve, hsnapshot]
      rfl
  | ok snapshot =>
    have hregister : ∀ e : Entry, c.registry.register s role = .error (.roleTaken e.role) →
        c.reserve s role offer = .error (.roleTaken e.role) := by
      intro e hr
      simp only [Coordinator.reserve, hsnapshot, hr]
      rfl
    have hentered : ∀ entered, c.registry.register s role = .ok entered →
        c.prepare s role offer = (.ok ⟨s, entered.1, role, offer, snapshot⟩, [],
          { c with registry := entered.2 }) := by
      intro entered hr
      simp only [Coordinator.prepare, Coordinator.reserve, hsnapshot, hr]
      rfl
    rcases c.registry.register_cases s role with ⟨e, _, _, hr⟩ | ⟨_, hr⟩ | ⟨e, _, _, hr⟩
    · exact Or.inr ⟨_, hrefused _ (fun h => by cases h) (hregister e hr)⟩
    · exact Or.inl ⟨_, _, _, hentered _ hr, rfl⟩
    · exact Or.inl ⟨_, _, _, hentered _ hr, rfl⟩

theorem serve_begins {c : Coordinator} {t : TaskId} {q : Request} {task : Task}
    (h : (serve c t q).task.ongoing? = some task) : Begins q task := by
  cases q with
  | prepare s role offer =>
    rcases prepare_spec c s role offer with ⟨a, snapshot, c', hr, _⟩ | ⟨fault, hr⟩
    · simp only [serve, hr] at h
      cases h
      exact .prepare
    · simp only [serve, hr] at h
      cases h
  | stop s leaving =>
    simp only [serve] at h
    generalize c.stop s = stopped at h
    obtain ⟨d | _, c'⟩ := stopped
    · cases h
      exact .stop
    · cases h
  | submit s candidate =>
    simp only [serve] at h
    rcases c.registry.submit_cases s candidate with ⟨_, endpoint, _, _, _, _, hr⟩ | ⟨_, hr⟩
    · simp only [Coordinator.submit, hr] at h
      cases h
      exact .submit
    · simp only [Coordinator.submit, hr] at h
      cases h
  | shutdown order =>
    obtain ⟨stage, rfl⟩ := shutdownFrom_task h
    exact .shutdown
  | requestMix =>
    simp only [serve] at h
    generalize c.mix.request t = step at h
    obtain ⟨stage | result, m⟩ := step
    · cases h
      exact .requestMix
    · cases h
  | withdrawMix =>
    simp only [serve] at h
    generalize c.mix.withdraw t = step at h
    obtain ⟨stage | existed, m⟩ := step
    · cases h
      exact .withdrawMix
    · cases h

theorem Conducts.continues {c : Coordinator} {n : Negotiation} {stage : NegotiationStage}
    {reply : Option Reply} {result : StepResult} (h : Conducts c n stage reply result) {task : Task}
    (hleft : result.task.ongoing? = some task) : ∃ stage', task = .negotiation n stage' := by
  cases h with
  | waits | goesOn =>
    cases hleft
    exact ⟨_, rfl⟩
  | completes => cases hleft
  | givesUp =>
    rw [Coordinator.giveUp_ongoing?] at hleft
    split at hleft
    · cases hleft
    · cases hleft
      exact ⟨_, rfl⟩

theorem stepTurn_continues {c : Coordinator} {t : TaskId} {task task' : Task} (hturn : c.hasTurn t task)
    (hno : ∀ n stage, task ≠ .negotiation n stage)
    (hleft : (c.stepTurn t task).task.ongoing? = some task') : Continues task task' := by
  cases task with
  | negotiation n stage => exact (hno n stage rfl).elim
  | stop | apply => cases hturn
  | shutdown stage =>
    cases stage with
    | stopping => cases hturn
    | withdrawing stage =>
      cases stage with
      | waiting =>
        simp only [Coordinator.stepTurn] at hleft
        generalize c.mix.enterWithdrawal = step at hleft
        obtain ⟨stage | existed, m⟩ := step <;> cases hleft
        exact .shutdown
      | _ => cases hturn
  | mixRequest stage =>
    cases stage with
    | waiting =>
      simp only [Coordinator.stepTurn] at hleft
      generalize c.mix.enterRequest = step at hleft
      obtain ⟨stage | result, m⟩ := step <;> cases hleft
      exact .mixRequest
    | _ => cases hturn
  | mixWithdrawal stage =>
    cases stage with
    | waiting =>
      simp only [Coordinator.stepTurn] at hleft
      generalize c.mix.enterWithdrawal = step at hleft
      obtain ⟨stage | existed, m⟩ := step <;> cases hleft
      exact .mixWithdrawal
    | _ => cases hturn

theorem stepReply_continues {c : Coordinator} {t : TaskId} {task task' : Task} {reply : Reply}
    (hno : ∀ n stage, task ≠ .negotiation n stage)
    (hleft : (c.stepReply t task reply).task.ongoing? = some task') : Continues task task' := by
  cases task with
  | negotiation n stage => exact (hno n stage rfl).elim
  | apply => cases hleft
  | stop s leaving d =>
    simp only [Coordinator.stepReply] at hleft
    generalize Coordinator.release _ d.entry d.rest = released at hleft
    obtain ⟨d' | _, c'⟩ := released <;> cases hleft
    exact .stop
  | shutdown stage =>
    cases stage with
    | stopping d left =>
      simp only [Coordinator.stepReply] at hleft
      generalize Coordinator.release _ d.entry d.rest = released at hleft
      obtain ⟨d' | _, c'⟩ := released
      · cases hleft
        exact .shutdown
      · obtain ⟨stage, rfl⟩ := shutdownFrom_task hleft
        exact .shutdown
    | withdrawing stage =>
      simp only [Coordinator.stepReply] at hleft
      generalize MixCell.resumeWithdrawal _ stage = step at hleft
      obtain ⟨stage | existed, m⟩ := step <;> cases hleft
      exact .shutdown
  | mixRequest stage =>
    simp only [Coordinator.stepReply] at hleft
    generalize MixCell.resumeRequest _ stage reply = step at hleft
    obtain ⟨stage | result, m⟩ := step <;> cases hleft
    exact .mixRequest
  | mixWithdrawal stage =>
    simp only [Coordinator.stepReply] at hleft
    generalize MixCell.resumeWithdrawal _ stage = step at hleft
    obtain ⟨stage | existed, m⟩ := step <;> cases hleft
    exact .mixWithdrawal

/-- A negotiation that was given up has its objects released one by one. -/
theorem Episode.Occurs.releases {x : Episode} (hx : x.Occurs) {n : Negotiation}
    {fault : NegotiationFault} {e : Entry} {o : ObjectId} {rest : List ObjectId}
    (hwas : x.was = some (.negotiation n (.releasing fault e o rest))) :
    ∃ (c : Coordinator) (reply : Reply), x.action.reply? = some reply ∧
      x.result = c.giveUp n fault e rest ∧
      c.metrics.negotiations = x.before.coordinator.metrics.negotiations ∧
      c.registry = x.before.coordinator.registry := by
  cases hx with
  | request => cases hwas
  | turn ht hturn =>
    cases hwas
    cases hturn
  | @reply b t task call reply ht hcall hadmits =>
    cases hwas
    exact ⟨_, reply, rfl, rfl, Coordinator.countRelease_negotiations _ _ _,
      Coordinator.countRelease_registry _ _ _⟩

section Calls
variable {x : Episode} {n : Negotiation} {stage : NegotiationStage}
  (hwas : x.was = some (.negotiation n stage))
include hwas

theorem Episode.calls_of_live (hlive : stage.isLive) :
    x.calls = negotiationCalls n stage x.action.reply? x.result := by
  unfold calls
  rw [hwas]
  exact taskCalls_of_live _ hlive _ _

/-- A negotiation names its own attempt in all that it asks of the registry. -/
theorem Episode.calls_name {call : Registry.Call} (h : call ∈ x.calls) :
    call.attempt? = some n.attempt ∧ call.session = n.session := by
  cases hlive : stage.isLive with
  | false => simp [calls, hwas, taskCalls, hlive] at h
  | true =>
    rw [calls_of_live hwas hlive] at h
    rcases List.mem_append.mp h with hask | hremove
    · obtain ⟨ha, hs, _⟩ := NegotiationStage.asks_attempt? (Option.mem_toList.mp hask)
      exact ⟨ha, hs⟩
    · split at hremove
      · obtain rfl := List.mem_singleton.mp hremove
        exact ⟨rfl, rfl⟩
      · cases hremove

end Calls

/-- What is left of a task is the same task further on. -/
theorem Episode.Occurs.continues {x : Episode} (hx : x.Occurs) (h : x.before.Consistent)
    {task task' : Task} (hwas : x.was = some task) (hleft : x.left = some task') :
    Continues task task' := by
  by_cases hn : ∃ n stage, task = .negotiation n stage
  · obtain ⟨n, stage, rfl⟩ := hn
    have hsame : ∃ stage', task' = .negotiation n stage' := by
      cases hlive : stage.isLive with
      | true => exact (hx.conducts h hwas hlive).continues hleft
      | false =>
        cases stage with
        | releasing fault e o rest =>
          obtain ⟨c, _, _, hresult, _⟩ := hx.releases hwas
          rw [left, hresult, Coordinator.giveUp_ongoing?] at hleft
          split at hleft
          · cases hleft
          · exact ⟨_, (Option.some.inj hleft).symm⟩
        | _ => cases hlive
    obtain ⟨stage', rfl⟩ := hsame
    exact .negotiation
  · have hno : ∀ n stage, task ≠ .negotiation n stage := fun n stage heq => hn ⟨n, stage, heq⟩
    cases hx with
    | request => cases hwas
    | turn ht hturn =>
      cases hwas
      exact stepTurn_continues hturn hno hleft
    | reply =>
      cases hwas
      exact stepReply_continues hno hleft

end Broadcast
end Rostrum
