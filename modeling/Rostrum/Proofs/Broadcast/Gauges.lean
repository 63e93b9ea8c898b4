import Rostrum.Proofs.Broadcast.Listening

/-!
# What the gauges show

The gauge of a role is raised when a negotiation comes to its end and lowered when the entry has been
taken down. In between the entry stands in the registry, or a task has it in hand and releases its
objects. Main statement: at any time the gauge of a role shows how many entries of the role are there
that have become ready, in the registry and in hand together.
-/

namespace Rostrum

def Metrics.gauge (m : Metrics) : Role → Int
  | .presenter => m.presentersActive
  | .viewer => m.viewersActive

/-- Whether an entry is shown in the gauge of a role. -/
def Entry.counts (role : Role) (e : Entry) : Prop := e.phase = .ready ∧ e.role = role

instance (role : Role) : DecidablePred (Entry.counts role) := fun e => by
  unfold Entry.counts
  infer_instance

def tally (role : Role) (es : Multiset Entry) : Nat := es.countP (Entry.counts role)

section Tally
variable (role : Role) (e : Entry) (es es' : Multiset Entry)

theorem tally_add : tally role (es + es') = tally role es + tally role es' := Multiset.countP_add _ _ _

theorem tally_cons : tally role (e ::ₘ es) = tally role es + if e.counts role then 1 else 0 :=
  Multiset.countP_cons _ _ _

theorem tally_singleton : tally role {e} = if e.counts role then 1 else 0 := by
  have h := tally_cons role e 0
  have hzero : tally role 0 = 0 := Multiset.countP_zero _
  rwa [hzero, Nat.zero_add] at h

variable {e}

theorem not_counts_of_pending (h : e.phase = .pending) : ¬ e.counts role := by
  rintro ⟨hready, _⟩
  rw [h] at hready
  cases hready

end Tally

namespace Metrics

theorem gauge_addActive (m : Metrics) (role : Role) (delta : Int) (role' : Role) :
    (m.addActive role.text delta).gauge role' = m.gauge role' + if role = role' then delta else 0 := by
  cases role <;> cases role' <;> simp [addActive, gauge, Role.text]

theorem gauge_countNegotiation (m : Metrics) (labels : NegotiationLabels) (role : Role) :
    (m.countNegotiation labels).gauge role = m.gauge role := by
  cases role <;> rfl

end Metrics

namespace Registry.WellFormed
variable {r : Registry} (w : r.WellFormed) (role : Role) {s : SessionId} {a : Attempt} {e : Entry}
include w

theorem tally_modifyAttempt (h : r.attempt? s a = some e) {f : Entry → Entry}
    (hphase : ∀ e, (f e).phase = e.phase) (hrole : ∀ e, (f e).role = e.role) :
    tally role (r.modifyAttempt s a f).entries = tally role r.entries := by
  obtain ⟨rest, hbefore, hafter⟩ := w.entries_modifyAttempt h f
  rw [hbefore, hafter, tally_cons, tally_cons]
  simp only [Entry.counts, hphase, hrole]

theorem tally_note {f : Entry → Entry} (hphase : ∀ e, (f e).phase = e.phase)
    (hrole : ∀ e, (f e).role = e.role) :
    tally role (r.note s a f).2.entries = tally role r.entries := by
  rcases r.note_cases s a f with ⟨e, he, hnote⟩ | ⟨_, hnote⟩
  · rw [hnote]
    exact w.tally_modifyAttempt role he hphase hrole
  · rw [hnote]

theorem tally_finish (h : r.attempt? s a = some e) (hpending : e.phase = .pending) :
    tally role (r.modifyAttempt s a fun e => { e with phase := .ready }).entries =
      tally role r.entries + if e.role = role then 1 else 0 := by
  obtain ⟨rest, hbefore, hafter⟩ := w.entries_modifyAttempt h fun e => { e with phase := .ready }
  rw [hbefore, hafter, tally_cons, tally_cons, if_neg (not_counts_of_pending role hpending)]
  simp only [Entry.counts, true_and, Nat.add_zero]

theorem tally_addAttempt (h : r.entry? s = none) (role' : Role) :
    tally role (r.addAttempt s role').2.entries = tally role r.entries := by
  have hnew : ¬ (r.newEntry role').counts role := not_counts_of_pending role rfl
  rw [w.entries_addAttempt h, tally_cons, if_neg hnew, Nat.add_zero]

theorem tally_register (s : SessionId) (role' : Role) :
    tally role (r.next (.register s role')).entries = tally role r.entries := by
  have ho := r.perform_outcome (.register s role')
  generalize r.answer (.register s role') = ans at ho
  generalize r.next (.register s role') = r' at ho
  cases ho with
  | roleTaken => rfl
  | entered he => exact w.tally_addAttempt role he role'
  | enteredAnew he hst =>
    rw [(w.supersede he hst).tally_addAttempt role (w.entry?_supersede_self he), w.entries_supersede he]

end Registry.WellFormed

namespace Broadcast

/-- The entry that a task is taking down. -/
def inHand (task : Option Task) : Multiset Entry :=
  ((task.bind Task.teardown?).toList.map Teardown.entry : List Entry)

theorem inHand_of_live {n : Negotiation} {stage : NegotiationStage} (h : stage.isLive) :
    inHand (some (.negotiation n stage)) = 0 := by
  cases stage with
  | releasing => cases h
  | _ => rfl

end Broadcast

namespace Coordinator
open Broadcast

/-- What a gauge shows beyond the entries that are ready, in the registry or in hand. -/
def excess (c : Coordinator) (es : Multiset Entry) (role : Role) : Int :=
  c.metrics.gauge role - tally role (c.registry.entries + es)

/-- A step that starts with some entries in hand and keeps the gauges in line with what is there. -/
def KeepsGauges (c : Coordinator) (es : Multiset Entry) (result : StepResult) : Prop :=
  ∀ role, result.coordinator.excess (inHand result.task.ongoing?) role = c.excess es role

def heldBy : Progress Teardown Unit → Multiset Entry
  | .ongoing d => {d.entry}
  | .done () => 0

section Steps
variable {c c' : Coordinator} {es : Multiset Entry} (role : Role)

theorem excess_eq (hgauge : c'.metrics.gauge role = c.metrics.gauge role)
    (hentries : tally role c'.registry.entries = tally role c.registry.entries) :
    c'.excess es role = c.excess es role := by
  unfold excess
  rw [hgauge, tally_add, tally_add, hentries]

/-- An entry goes from the registry into somebody's hand. -/
theorem excess_take {e : Entry} (hgauge : c'.metrics = c.metrics)
    (hentries : c.registry.entries = e ::ₘ c'.registry.entries) :
    c'.excess {e} role = c.excess 0 role := by
  unfold excess
  rw [hgauge, hentries, Multiset.add_comm, Multiset.singleton_add, Multiset.add_zero]

theorem excess_settle (e : Entry) : (c.settle e).excess 0 role = c.excess {e} role := by
  have hgauge : (c.settle e).metrics.gauge role =
      c.metrics.gauge role - if e.counts role then 1 else 0 := by
    unfold settle
    cases hphase : e.phase with
    | pending => simp [Entry.counts, hphase]
    | ready =>
      simp only [Metrics.gauge_addActive, Entry.counts, hphase, true_and]
      split <;> omega
  unfold excess
  rw [hgauge, settle_registry, tally_add, tally_add, tally_singleton]
  change _ - ((tally role c.registry.entries + 0 : Nat) : Int) = _
  split <;> omega

theorem excess_reject (s : SessionId) (role' : Role) (fault : NegotiationFault) :
    (c.reject s role' fault).2.excess es role = c.excess es role := by
  unfold reject
  split
  · exact excess_eq role (Metrics.gauge_countNegotiation _ _ _) rfl
  · rfl

theorem excess_countRelease (task : Task) (reply : Reply) :
    (c.countRelease task reply).excess es role = c.excess es role := by
  unfold countRelease
  split
  · exact excess_eq role (by cases role <;> rfl) rfl
  · rfl

theorem release_keeps (e : Entry) (objects : List ObjectId) :
    (c.release e objects).2.excess (heldBy (c.release e objects).1) role = c.excess {e} role := by
  cases objects with
  | nil => exact excess_settle role e
  | cons => rfl

theorem stop_keeps (w : c.registry.WellFormed) (s : SessionId) :
    (c.stop s).2.excess (heldBy (c.stop s).1) role = c.excess 0 role := by
  unfold stop
  rcases c.registry.stop_cases s with ⟨_, hs⟩ | ⟨e, he, _, hs⟩ | ⟨e, he, _, hs⟩
  · rw [hs]
    rfl
  · rw [hs]
    have hsame := w.tally_modifyAttempt role (w.attempt?_of_current he)
      (f := fun e => { e with stopped := true }) (fun _ => rfl) (fun _ => rfl)
    exact excess_eq role rfl hsame
  · rw [hs]
    refine (release_keeps role e e.objects).trans ?_
    exact excess_take role rfl (w.entries_takeOut (w.attempt?_of_current he))

theorem shutdownFrom_keeps (w : c.registry.WellFormed) (t : TaskId) (order : List SessionId) :
    c.KeepsGauges 0 (c.shutdownFrom t order) := by
  intro role
  induction order generalizing c with
  | nil =>
    unfold shutdownFrom shutdownMix
    split <;> rfl
  | cons s left ih =>
    have hstop := stop_keeps role w s
    have hreg := c.stop_registry s
    unfold shutdownFrom
    cases h : c.stop s with
    | mk progress c' =>
      rw [h] at hstop hreg
      cases progress with
      | ongoing d => exact hstop
      | done =>
        have w' : c'.registry.WellFormed := by
          rw [show c'.registry = _ from hreg]
          exact w.next (.stop s)
        exact (ih w').trans hstop

end Steps

/-! ## The steps of a negotiation -/

section Negotiations
variable {c : Coordinator} (w : c.registry.WellFormed) {n : Negotiation} {stage : NegotiationStage}

theorem giveUp_keeps (fault : NegotiationFault) (e : Entry) (objects : List ObjectId) :
    c.KeepsGauges {e} (c.giveUp n fault e objects) := by
  intro role
  cases objects with
  | cons => rfl
  | nil =>
    refine Eq.trans ?_ (excess_settle role e)
    unfold giveUp
    dsimp only
    split
    · rfl
    · exact excess_reject role n.session n.role fault

theorem advance_keeps (hlive : stage.isLive) : c.KeepsGauges 0 (c.advance n stage) := by
  intro role
  unfold advance
  rw [Progress.ongoing?, inHand_of_live hlive]

include w

theorem abort_keeps (fault : NegotiationFault) : c.KeepsGauges 0 (c.abort n fault) := by
  intro role
  unfold abort
  rcases c.registry.remove_cases n.session n.attempt with ⟨_, hr⟩ | ⟨e, he, ha, hr⟩ | ⟨e, _, he, hr⟩
  · rw [hr]
    rfl
  · rw [hr]
    refine (giveUp_keeps fault e e.objects role).trans (excess_take role rfl ?_)
    exact w.entries_takeOut (ha ▸ w.attempt?_of_current he)
  · rw [hr]
    refine (giveUp_keeps fault e e.objects role).trans (excess_take role rfl ?_)
    exact w.entries_takeOut (w.attempt?_of_superseded he _)

theorem advanceChecked_keeps (hlive : stage.isLive) : c.KeepsGauges 0 (c.advanceChecked n stage) := by
  unfold advanceChecked
  split
  · exact advance_keeps hlive
  · exact abort_keeps w _

theorem afterMix_keeps (step : MixCell.RequestStep) : c.KeepsGauges 0 (c.afterMix n step) := by
  obtain ⟨progress, mix⟩ := step
  have w' : ({ c with mix := mix } : Coordinator).registry.WellFormed := w
  cases progress with
  | ongoing => exact fun role => rfl
  | done result =>
    cases result with
    | ok mix =>
      have hlive : (NegotiationStage.creatingEndpoint mix).isLive := rfl
      exact advanceChecked_keeps w' hlive
    | error fault => exact abort_keeps w' (.engine fault)

theorem start_keeps (t : TaskId) : c.KeepsGauges 0 (c.start t n) := by
  unfold start
  split
  · exact advanceChecked_keeps w rfl
  · exact afterMix_keeps w _

theorem drain_keeps (endpoint : Endpoint) : c.KeepsGauges 0 (c.drain n endpoint) := by
  intro role
  unfold drain
  rcases c.registry.nextCandidate_cases n.session n.attempt with
    ⟨_, hr⟩ | ⟨e, candidate, buffer, _, _, hr⟩ | ⟨e, hrun, _, hr⟩
  · rw [hr]
    exact abort_keeps w _ role
  · rw [hr]
    rfl
  · rw [hr]
    have hsame := w.tally_modifyAttempt role (Registry.attempt?_of_running hrun)
      (f := fun e => { e with endpointReady := true }) (fun _ => rfl) (fun _ => rfl)
    exact excess_eq role rfl hsame

/-- An object that was made is noted on its entry, and no gauge counts objects. -/
theorem excess_noted {f : Entry → Entry} {result : Except NegotiationFault Unit} {registry : Registry}
    (hnote : c.registry.note n.session n.attempt f = (result, registry))
    (hphase : ∀ e, (f e).phase = e.phase) (hrole : ∀ e, (f e).role = e.role) (role : Role) :
    ({ c with registry := registry } : Coordinator).excess 0 role = c.excess 0 role := by
  have hsame := w.tally_note role (s := n.session) (a := n.attempt) hphase hrole
  rw [hnote] at hsame
  exact excess_eq role rfl hsame

theorem endpointMade_keeps (mix : SharedMix) (endpoint : Endpoint) :
    c.KeepsGauges 0 (c.endpointMade n mix endpoint) := by
  intro role
  have hnext := w.next (.setEndpoint n.session n.attempt endpoint)
  rw [Registry.next_setEndpoint] at hnext
  unfold endpointMade
  cases hset : c.registry.setEndpoint n.session n.attempt endpoint with
  | mk result registry =>
    rw [hset] at hnext
    have hnoted := excess_noted w hset (fun _ => rfl) (fun _ => rfl) role
    have w' : ({ c with registry := registry } : Coordinator).registry.WellFormed := hnext
    cases result with
    | error fault => exact (abort_keeps w' fault role).trans hnoted
    | ok =>
      dsimp only
      split
      · exact hnoted
      · exact (abort_keeps w' _ role).trans hnoted

theorem portMade_keeps (endpoint : Endpoint) (port : MixerPort) :
    c.KeepsGauges 0 (c.portMade n endpoint port) := by
  intro role
  have hnext := w.next (.setPort n.session n.attempt port)
  rw [Registry.next_setPort] at hnext
  unfold portMade
  cases hset : c.registry.setPort n.session n.attempt port with
  | mk result registry =>
    rw [hset] at hnext
    have hnoted := excess_noted w hset (fun _ => rfl) (fun _ => rfl) role
    have w' : ({ c with registry := registry } : Coordinator).registry.WellFormed := hnext
    cases result with
    | error fault => exact (abort_keeps w' fault role).trans hnoted
    | ok => exact hnoted

theorem answered_keeps (endpoint : Endpoint) (answer : String) :
    c.KeepsGauges 0 (c.answered n endpoint answer) := by
  unfold answered
  split
  · exact fun role => rfl
  · exact abort_keeps w _

/-- A negotiation that completes raises the gauge of its role, which has to be that of its entry. -/
theorem complete_keeps (answer : String) {e : Entry}
    (he : c.registry.attempt? n.session n.attempt = some e) (hpending : e.phase = .pending)
    (hrole : e.role = n.role) : c.KeepsGauges 0 (c.complete n answer) := by
  intro role
  unfold complete
  rcases c.registry.finish_cases n.session n.attempt with ⟨_, hr⟩ | ⟨e', hrun, hr⟩
  · rw [hr]
    exact abort_keeps w _ role
  · rw [hr]
    have hready := w.tally_finish role he hpending
    change _ - ((tally role (_ + 0) : Nat) : Int) = _ - ((tally role (_ + 0) : Nat) : Int)
    rw [Metrics.gauge_countNegotiation, Metrics.gauge_addActive, tally_add, tally_add, hready, hrole]
    split <;> omega

theorem resume_keeps (hlive : stage.isLive) (h : HasEntry c.registry n stage)
    (hrole : ∀ e, c.registry.attempt? n.session n.attempt = some e → e.role = n.role)
    (reply : Reply) : c.KeepsGauges 0 (c.resume n stage reply) := by
  cases stage with
  | releasing => cases hlive
  | prepared => exact advance_keeps rfl
  | obtainingMix => exact afterMix_keeps w _
  | creatingEndpoint mix =>
    cases reply with
    | ok id => exact endpointMade_keeps w mix _
    | error => exact abort_keeps w _
  | creatingPort mix endpoint =>
    cases reply with
    | ok id => exact portMade_keeps w endpoint _
    | error => exact abort_keeps w _
  | connecting endpoint port =>
    cases reply with
    | ok text =>
      rcases c.connected_cases n endpoint port text with ⟨_, hresume⟩ | ⟨fault, _, hresume⟩
      · rw [hresume]
        exact drain_keeps w endpoint
      · rw [hresume]
        exact abort_keeps w fault
    | error => exact abort_keeps w _
  | applying endpoint candidate =>
    cases reply with
    | ok => exact drain_keeps w endpoint
    | error => exact abort_keeps w _
  | subscribing endpoint =>
    cases reply with
    | ok => exact advanceChecked_keeps w rfl
    | error => exact abort_keeps w _
  | offering endpoint =>
    cases reply with
    | ok answer => exact answered_keeps w endpoint answer
    | error => exact abort_keeps w _
  | gathering endpoint answer =>
    cases reply with
    | ok =>
      obtain ⟨e, he, hpending, _⟩ := h
      exact complete_keeps w answer he hpending (hrole e he)
    | error => exact abort_keeps w _

end Negotiations

/-! ## The steps of all tasks -/

section Tasks
variable {c : Coordinator}

theorem stopTask_keeps {es : Multiset Entry} {step : Progress Teardown Unit × Coordinator}
    (h : ∀ role, step.2.excess (heldBy step.1) role = c.excess es role) (s : SessionId) (leaving : Bool) :
    c.KeepsGauges es (stopTask s leaving step) := by
  obtain ⟨progress, c'⟩ := step
  cases progress with
  | ongoing => exact h
  | done => exact h

theorem mixRequested_keeps (step : MixCell.RequestStep) : c.KeepsGauges 0 (c.mixRequested step) := by
  intro role
  unfold mixRequested
  split <;> rfl

theorem mixWithdrawn_keeps (step : MixCell.WithdrawalStep) : c.KeepsGauges 0 (c.mixWithdrawn step) := by
  intro role
  unfold mixWithdrawn
  split <;> rfl

theorem shutdownWithdrawn_keeps (step : MixCell.WithdrawalStep) :
    c.KeepsGauges 0 (c.shutdownWithdrawn step) := by
  intro role
  unfold shutdownWithdrawn
  split <;> rfl

variable (w : c.registry.WellFormed)
include w

theorem stepTurn_keeps (t : TaskId) (task : Task) :
    c.KeepsGauges (inHand (some task)) (c.stepTurn t task) := by
  unfold stepTurn
  split
  · exact start_keeps w t
  · exact afterMix_keeps w _
  · exact shutdownWithdrawn_keeps _
  · exact mixRequested_keeps _
  · exact mixWithdrawn_keeps _
  · exact fun role => rfl

theorem resumeShutdown_keeps (t : TaskId) (d : Teardown) (left : List SessionId) :
    c.KeepsGauges {d.entry}
      (match c.release d.entry d.rest with
        | (.ongoing d, c) => ⟨c, [], .ongoing (.shutdown (.stopping d left))⟩
        | (.done (), c) => c.shutdownFrom t left) := by
  intro role
  have hreleased := release_keeps (c := c) role d.entry d.rest
  have hreg := (release_spec d (c := c) rfl rfl).1
  cases hstep : c.release d.entry d.rest with
  | mk progress c' =>
    rw [hstep] at hreleased hreg
    cases progress with
    | ongoing => exact hreleased
    | done =>
      have w' : c'.registry.WellFormed := by
        rw [show c'.registry = c.registry from hreg]
        exact w
      exact (shutdownFrom_keeps w' t left role).trans hreleased

theorem stepReply_keeps (t : TaskId) {task : Task} (reply : Reply)
    (hentry : ∀ n stage, task = .negotiation n stage → stage.isLive → HasEntry c.registry n stage)
    (hrole : ∀ n stage, task = .negotiation n stage →
      ∀ e, c.registry.attempt? n.session n.attempt = some e → e.role = n.role) :
    c.KeepsGauges (inHand (some task)) (c.stepReply t task reply) := by
  have hreg := c.countRelease_registry task reply
  have w' : (c.countRelease task reply).registry.WellFormed := hreg.symm ▸ w
  suffices hkeeps : (c.countRelease task reply).KeepsGauges (inHand (some task)) (c.stepReply t task reply) by
    exact fun role => (hkeeps role).trans (excess_countRelease role task reply)
  cases task with
  | negotiation n stage =>
    cases hlive : stage.isLive with
    | true =>
      rw [inHand_of_live hlive]
      refine resume_keeps w' hlive ?_ ?_ reply
      · rw [hreg]
        exact hentry n stage rfl hlive
      · rw [hreg]
        exact hrole n stage rfl
    | false =>
      cases stage with
      | releasing fault e o rest => exact giveUp_keeps fault e rest
      | _ => cases hlive
  | stop s leaving d => exact stopTask_keeps (fun role => release_keeps role d.entry d.rest) s leaving
  | apply => exact fun role => rfl
  | shutdown stage =>
    cases stage with
    | stopping d left => exact resumeShutdown_keeps w' t d left
    | withdrawing => exact shutdownWithdrawn_keeps _
  | mixRequest => exact mixRequested_keeps _
  | mixWithdrawal => exact mixWithdrawn_keeps _

theorem serve_keeps (t : TaskId) (q : Request) : c.KeepsGauges 0 (serve c t q) := by
  cases q with
  | prepare s role' offer =>
    intro role
    have hreg := (prepare_follows c t s role' offer).registry
    have hsame : tally role (c.registry.after (requestCalls c (.prepare s role' offer))).entries =
        tally role c.registry.entries := by
      cases hsnap : c.snapshot s role' with
      | ok =>
        simp only [requestCalls, hsnap]
        exact w.tally_register role s role'
      | error =>
        simp only [requestCalls, hsnap]
        rfl
    rw [← hreg] at hsame
    rcases prepare_spec c s role' offer with ⟨a, snapshot, c', hp, hmetrics⟩ | ⟨fault, hp⟩
    · simp only [serve, hp] at hsame ⊢
      exact excess_eq role (by rw [hmetrics]) hsame
    · simp only [serve, hp]
      exact excess_eq role (Metrics.gauge_countNegotiation _ _ _) rfl
  | stop s leaving => exact stopTask_keeps (fun role => stop_keeps role w s) s leaving
  | submit s candidate =>
    intro role
    rcases c.registry.submit_cases s candidate with ⟨_, _, _, _, _, _, hs⟩ | ⟨_, hs⟩
    · simp only [serve, submit, hs]
      rfl
    · simp only [serve, submit, hs]
      exact excess_eq role (by cases role <;> rfl) rfl
  | shutdown order => exact shutdownFrom_keeps w t order
  | requestMix => exact mixRequested_keeps _
  | withdrawMix => exact mixWithdrawn_keeps _

end Tasks

end Coordinator

namespace Broadcast

/-! ## Runs -/

/-- An entry has the role of the negotiation that it belongs to. -/
def Cast (b : Broadcast) : Prop :=
  ∀ t n stage, b.tasks.get? t = some (.negotiation n stage) →
    ∀ e ∈ b.coordinator.registry.entries, e.attempt = n.attempt → e.role = n.role

theorem Cast.role_eq {b : Broadcast} (hcast : b.Cast) (w : b.coordinator.registry.WellFormed) {t : TaskId}
    {n : Negotiation} {stage : NegotiationStage} (ht : b.tasks.get? t = some (.negotiation n stage))
    {e : Entry} (he : b.coordinator.registry.attempt? n.session n.attempt = some e) : e.role = n.role := by
  obtain ⟨hm, ha⟩ := w.mem_of_attempt? he
  exact hcast t n stage ht e hm ha

theorem Move.enters_role {r : Registry} (w : r.WellFormed) {reply : Option Reply}
    {calls : List Registry.Call} {n : Negotiation} {stage : NegotiationStage}
    (m : Move r none reply calls (some (.negotiation n stage))) (hlive : stage.isLive) :
    ∃ e, (r.after calls).attempt? n.session n.attempt = some e ∧ e.role = n.role := by
  generalize hafter : some (Task.negotiation n stage) = after at m
  cases m with
  | enters hentered =>
    cases hafter
    exact ⟨_, (w.attempt?_register hentered).2.1, rfl⟩
  | disposes _ hd => exact absurd hlive (by simp [hd.not_live hafter.symm])
  | _ => cases hafter

theorem cast (actions : List Action) : (run {} actions).Cast := by
  refine later_induction (P := fun _ b => b.Cast) [] (fun _ _ _ h => by cases h) ?_
  rintro _ x hold ⟨earlier, hbefore⟩ hx _ t n stage ht e he ha
  have h : x.before.Consistent := hbefore ▸ consistent earlier
  have hreg := hx.registry_after h
  have hafter : x.after.coordinator.registry.WellFormed := hreg ▸ h.wellFormed.after x.calls
  -- a negotiation that was there before had its attempt number, and its entry keeps its role
  have hearlier : ∀ t n stage, x.before.tasks.get? t = some (.negotiation n stage) →
      e.attempt = n.attempt → e.role = n.role := by
    intro t n stage ht ha
    have hprepared := hbefore ▸ (subscribed earlier).prepared t n stage (hbefore ▸ ht)
    have hle := (hbefore ▸ accounted earlier).issued_le _ _ hprepared
    rw [← ha] at hle
    rw [hreg] at he
    obtain ⟨e₀, he₀, hev⟩ := (h.wellFormed.after_changes x.calls).origin h.wellFormed he hle
    exact hev.role.trans (hold t n stage ht e₀ he₀ (hev.attempt.symm.trans ha))
  rw [x.get?_after] at ht
  split at ht
  · rcases hx.negotiation_origin h ht with ⟨stage', hwas⟩ | ⟨hwas, rfl, _⟩
    · exact hearlier x.task n stage' ((hx.taken h).task.trans hwas) ha
    · have m := (hx.taken h).follows.move
      rw [hwas, show x.result.task.ongoing? = _ from ht] at m
      obtain ⟨e', he', hrole⟩ := m.enters_role h.wellFormed rfl
      rw [← hreg] at he'
      rwa [hafter.eq_of_attempt? he' he ha]
  · exact hearlier t n stage ht ha

theorem Episode.Occurs.keeps {x : Episode} (hx : x.Occurs) (h : x.before.Consistent)
    (hcast : x.before.Cast) : x.before.coordinator.KeepsGauges (inHand x.was) x.result := by
  cases hx with
  | request => exact Coordinator.serve_keeps h.wellFormed _ _
  | turn => exact Coordinator.stepTurn_keeps h.wellFormed _ _
  | @reply b t task call reply ht hcall =>
    refine Coordinator.stepReply_keeps h.wellFormed t reply ?_ ?_
    · rintro n stage rfl hlive
      exact h.hasEntry t n stage ⟨ht, hlive⟩
    · rintro n stage rfl e he
      exact hcast.role_eq h.wellFormed ht he

/-- The entries that the gauges show, and those that are still to become ready. -/
def shown (b : Broadcast) : Multiset Entry :=
  b.coordinator.registry.entries + b.tasks.contents.bind fun task => inHand (some task)

theorem bind_inHand (task : Option Task) :
    ((task.toList : Multiset Task).bind fun task => inHand (some task)) = inHand task := by
  cases task with
  | none => rfl
  | some task => simp

theorem Episode.Occurs.gauge_step {x : Episode} (hx : x.Occurs) (h : x.before.Consistent)
    (hcast : x.before.Cast) (role : Role)
    (hgauge : x.before.coordinator.metrics.gauge role = tally role x.before.shown) :
    x.after.coordinator.metrics.gauge role = tally role x.after.shown := by
  have hkeeps := hx.keeps h hcast role
  have htasks : (x.after.tasks.contents.bind fun task => inHand (some task)) + inHand x.was =
      (x.before.tasks.contents.bind fun task => inHand (some task)) + inHand x.left := by
    have htaken := bind_take h.tasks_distinct (hx.taken h).task x.action.reply? x.calls x.result
      fun task => inHand (some task)
    rwa [bind_inHand, bind_inHand] at htaken
  have hcount := congrArg (tally role) htasks
  unfold Coordinator.excess at hkeeps
  unfold shown at hgauge ⊢
  rw [tally_add, tally_add] at hkeeps hcount
  rw [tally_add] at hgauge ⊢
  change x.after.coordinator.metrics.gauge role - ((tally role x.after.coordinator.registry.entries +
    tally role (inHand x.left) : Nat) : Int) = _ at hkeeps
  omega

/-- The gauge of a role shows the ready entries of the role, also those being taken down. -/
theorem gauge_eq (actions : List Action) (role : Role) :
    (run {} actions).coordinator.metrics.gauge role = tally role (run {} actions).shown := by
  refine later_induction
    (P := fun _ b => b.coordinator.metrics.gauge role = tally role b.shown) [] ?_ ?_
  · cases role <;> rfl
  · rintro _ x hgauge ⟨earlier, hbefore⟩ hx _
    exact hx.gauge_step (hbefore ▸ consistent earlier) (hbefore ▸ cast earlier) role hgauge

end Broadcast

end Rostrum
