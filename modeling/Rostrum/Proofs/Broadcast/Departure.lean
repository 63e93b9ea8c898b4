import Rostrum.Proofs.Broadcast.Delivery
import Rostrum.Proofs.Broadcast.Gauges
import Rostrum.Proofs.Registry.Apart

/-!
# What is done for a session

A step is taken for a session if it serves a request of the session, or is a step of a task that works
for it. Such a step calls the registry for this session only, says something to no other session, and
leaves what belongs to other sessions as it is.

When nothing has come from a session since a stop, and nobody works for it any more, then nothing is left
of it: no entry, no queue, nothing in hand, and everything that was made for it was released.
-/

namespace Rostrum

namespace Coordinator

theorem release_entry {c : Coordinator} {e : Entry} {objects : List ObjectId} {d : Teardown}
    (h : (c.release e objects).1 = .ongoing d) : d.entry = e := by
  cases objects with
  | nil => cases h
  | cons => exact congrArg Teardown.entry (Progress.ongoing.inj h).symm

theorem stop_entry {c : Coordinator} {s : SessionId} {d : Teardown} (h : (c.stop s).1 = .ongoing d) :
    c.registry.entry? s = some d.entry := by
  unfold stop at h
  rcases c.registry.stop_cases s with ⟨_, hs⟩ | ⟨e, _, _, hs⟩ | ⟨e, he, _, hs⟩
  · rw [hs] at h
    cases h
  · rw [hs] at h
    cases h
  · rw [hs] at h
    rw [release_entry h]
    exact he

theorem stopTask_notices (s : SessionId) (leaving : Bool)
    (step : Progress Teardown Unit × Coordinator) : (stopTask s leaving step).notices = [] := by
  obtain ⟨progress, c⟩ := step
  cases progress <;> rfl

theorem stopTask_ongoing {s s' : SessionId} {leaving leaving' : Bool}
    {step : Progress Teardown Unit × Coordinator} {d : Teardown}
    (h : (stopTask s leaving step).task.ongoing? = some (.stop s' leaving' d)) :
    step.1 = .ongoing d := by
  obtain ⟨progress, c⟩ := step
  cases progress with
  | ongoing =>
    cases h
    rfl
  | done => cases h

theorem stopTask_left {s s' : SessionId} {leaving : Bool} {step : Progress Teardown Unit × Coordinator}
    (h : (stopTask s leaving step).task = .done (.left s')) : s' = s := by
  obtain ⟨progress, c⟩ := step
  cases progress with
  | ongoing => cases h
  | done =>
    cases leaving with
    | true =>
      cases h
      rfl
    | false => cases h

theorem shutdownFrom_not_left (c : Coordinator) (t : TaskId) (order : List SessionId) (s : SessionId) :
    (c.shutdownFrom t order).task ≠ .done (.left s) := by
  intro h
  rcases Broadcast.shutdownFrom_left t order c with ⟨d, left, hstopping⟩ | ⟨c', _, hmix⟩
  · cases hstopping.symm.trans h
  · rw [hmix] at h
    unfold shutdownMix at h
    split at h <;> cases h

section Mix
variable (c : Coordinator) (s : SessionId)

theorem mixRequested_not_left (step : MixCell.RequestStep) :
    (c.mixRequested step).task ≠ .done (.left s) := by
  unfold mixRequested
  split <;> exact fun h => by cases h

theorem mixWithdrawn_not_left (step : MixCell.WithdrawalStep) :
    (c.mixWithdrawn step).task ≠ .done (.left s) := by
  unfold mixWithdrawn
  split <;> exact fun h => by cases h

theorem shutdownWithdrawn_not_left (step : MixCell.WithdrawalStep) :
    (c.shutdownWithdrawn step).task ≠ .done (.left s) := by
  unfold shutdownWithdrawn
  split <;> exact fun h => by cases h

end Mix

theorem stepTurn_left {c : Coordinator} {t : TaskId} {task : Task} {s : SessionId}
    (h : (c.stepTurn t task).task = .done (.left s)) : ∃ n stage, task = .negotiation n stage := by
  unfold stepTurn at h
  split at h
  · exact ⟨_, _, rfl⟩
  · exact ⟨_, _, rfl⟩
  · exact absurd h (c.shutdownWithdrawn_not_left s _)
  · exact absurd h (c.mixRequested_not_left s _)
  · exact absurd h (c.mixWithdrawn_not_left s _)
  · cases h

theorem stepReply_left {c : Coordinator} {t : TaskId} {task : Task} {reply : Reply} {s : SessionId}
    (h : (c.stepReply t task reply).task = .done (.left s)) :
    (∃ n stage, task = .negotiation n stage) ∨ ∃ leaving d, task = .stop s leaving d := by
  cases task with
  | negotiation n stage => exact .inl ⟨n, stage, rfl⟩
  | stop s' leaving d =>
    obtain rfl := stopTask_left h
    exact .inr ⟨leaving, d, rfl⟩
  | apply => cases h
  | shutdown stage =>
    cases stage with
    | stopping d left =>
      unfold stepReply at h
      dsimp only at h
      split at h
      · cases h
      · exact absurd h (shutdownFrom_not_left _ _ _ _)
    | withdrawing => exact absurd h (shutdownWithdrawn_not_left _ s _)
  | mixRequest => exact absurd h (mixRequested_not_left _ s _)
  | mixWithdrawal => exact absurd h (mixWithdrawn_not_left _ s _)

end Coordinator

namespace Broadcast

/-- The session that a step is taken for, if it is taken for one session. -/
def Episode.session? (x : Episode) : Option SessionId :=
  match x.was, x.action with
  | some task, _ => task.session?
  | none, .request q => q.session?
  | none, _ => none

/-- What remains to be done for a session. -/
inductive WorksFor (b : Broadcast) (s : SessionId) : Task → Prop where
  | negotiation {n stage} : n.session = s → WorksFor b s (.negotiation n stage)
  | stop {leaving d} : WorksFor b s (.stop s leaving d)
  /-- A shutdown has taken the entry of the session and releases what it names. -/
  | shutdown {d left} : b.Prepared s d.entry.attempt → WorksFor b s (.shutdown (.stopping d left))

theorem request_cases {q : Request} {s : SessionId} (h : q.session? = some s) :
    (∃ role offer, q = .prepare s role offer) ∨ (∃ leaving, q = .stop s leaving) ∨
      ∃ c, q = .submit s c := by
  cases q with
  | prepare s' role offer =>
    cases h
    exact .inl ⟨role, offer, rfl⟩
  | stop s' leaving =>
    cases h
    exact .inr (.inl ⟨leaving, rfl⟩)
  | submit s' c =>
    cases h
    exact .inr (.inr ⟨c, rfl⟩)
  | shutdown | requestMix | withdrawMix => cases h

/-- A client does not leave by what it says. -/
theorem serve_not_left (c : Coordinator) (t : TaskId) (m : ClientMessage) (s s' : SessionId) :
    (serve c t (m.request s)).task ≠ .done (.left s') := by
  cases m with
  | join role offer =>
    rcases prepare_spec c s role offer with ⟨a, snapshot, c', hp, _⟩ | ⟨fault, hp⟩
    · simp [ClientMessage.request, serve, hp]
    · simp [ClientMessage.request, serve, hp]
  | stop =>
    simp only [ClientMessage.request, serve]
    obtain ⟨d | _, c'⟩ := c.stop s
    · simp [Coordinator.stopTask]
    · simp [Coordinator.stopTask]
  | candidate candidate =>
    rcases c.registry.submit_cases s candidate with ⟨_, _, _, _, _, _, hr⟩ | ⟨_, hr⟩
    · simp [ClientMessage.request, serve, Coordinator.submit, hr]
    · simp [ClientMessage.request, serve, Coordinator.submit, hr]

theorem session_of_requestCalls {c : Coordinator} {q : Request} {s : SessionId} (h : q.session? = some s)
    {call : Registry.Call} (hcall : call ∈ requestCalls c q) :
    call.session = s ∧ call.attempt? = none := by
  rcases request_cases h with ⟨role, offer, rfl⟩ | ⟨leaving, rfl⟩ | ⟨candidate, rfl⟩
  · cases hsnap : c.snapshot s role with
    | ok =>
      rw [requestCalls, hsnap] at hcall
      obtain rfl := List.mem_singleton.mp hcall
      exact ⟨rfl, rfl⟩
    | error =>
      rw [requestCalls, hsnap] at hcall
      cases hcall
  · obtain rfl := List.mem_singleton.mp hcall
    exact ⟨rfl, rfl⟩
  · obtain rfl := List.mem_singleton.mp hcall
    exact ⟨rfl, rfl⟩

namespace Episode.Occurs
variable {x : Episode} (hx : x.Occurs) (h : x.before.Consistent) {s : SessionId}
include hx h

/-- The calls of a step name the session that it is taken for, and attempts of this session. -/
theorem session_of_calls (hp : x.before.Subscribed) (hs : x.session? = some s) {call : Registry.Call}
    (hcall : call ∈ x.calls) :
    call.session = s ∧ ∀ a, call.attempt? = some a → x.before.Prepared s a := by
  have htask := (hx.taken h).task
  cases hwas : x.was with
  | none =>
    rw [session?, hwas] at hs
    cases ha : x.action with
    | request q =>
      rw [ha] at hs
      rw [(hx.calls_of_request ha).2] at hcall
      obtain ⟨hsession, hnone⟩ := session_of_requestCalls hs hcall
      refine ⟨hsession, fun a hcalled => ?_⟩
      cases hnone.symm.trans hcalled
    | turn | reply =>
      rw [ha] at hs
      cases hs
  | some task =>
    rw [session?, hwas] at hs
    cases task with
    | negotiation n stage =>
      obtain rfl : n.session = s := Option.some.inj hs
      obtain ⟨hattempt, hsession⟩ := calls_name hwas hcall
      refine ⟨hsession, fun a hcalled => ?_⟩
      obtain rfl := Option.some.inj (hattempt.symm.trans hcalled)
      exact hp.prepared x.task n stage (htask.trans hwas)
    | stop | apply =>
      have hnil : x.calls = [] := by
        unfold calls
        rw [hwas]
        rfl
      rw [hnil] at hcall
      cases hcall
    | shutdown | mixRequest | mixWithdrawal => cases hs

/-- A negotiation talks to its session, and does not end with a client leaving. -/
theorem negotiation_result {n : Negotiation} {stage : NegotiationStage}
    (hwas : x.was = some (.negotiation n stage)) :
    (∀ notice ∈ x.result.notices, notice.session = n.session) ∧ x.result.task ≠ .done (.left s) := by
  have hgiveUp : ∀ (c : Coordinator) fault e objects,
      (∀ notice ∈ (c.giveUp n fault e objects).notices, notice.session = n.session) ∧
        (c.giveUp n fault e objects).task ≠ .done (.left s) := by
    intro c fault e objects
    constructor
    · rcases c.giveUp_notices n fault e objects with hnone | ⟨_, _, hone⟩
      · simp [hnone]
      · simp [hone]
    · cases objects with
      | nil => exact fun hleft => by cases hleft
      | cons => exact fun hleft => by cases hleft
  cases hlive : stage.isLive with
  | true =>
    have hc := hx.conducts h hwas hlive
    generalize x.result = result at hc ⊢
    cases hc with
    | waits => exact ⟨by simp, fun hleft => by cases hleft⟩
    | goesOn stage' =>
      refine ⟨?_, fun hleft => by cases hleft⟩
      cases stage' <;> simp [NegotiationStage.announces]
    | completes => exact ⟨by simp, fun hleft => by cases hleft⟩
    | givesUp => exact hgiveUp _ _ _ _
  | false =>
    cases stage with
    | releasing fault e o rest =>
      obtain ⟨c, _, _, hresult, _⟩ := hx.releases hwas
      rw [hresult]
      exact hgiveUp c fault e rest
    | _ => cases hlive

/-- A step that is taken for a session says something to this session only. -/
theorem session_of_notices (hs : x.session? = some s) {notice : Notice}
    (hnotice : notice ∈ x.result.notices) : notice.session = s := by
  by_cases hn : ∃ n stage, x.was = some (.negotiation n stage)
  · obtain ⟨n, stage, hwas⟩ := hn
    rw [session?, hwas] at hs
    obtain rfl : n.session = s := Option.some.inj hs
    exact (hx.negotiation_result (s := n.session) h hwas).1 notice hnotice
  · have hno : ∀ n stage, x.was ≠ some (.negotiation n stage) := fun n stage hwas => hn ⟨n, stage, hwas⟩
    cases hx with
    | @request b q =>
      rcases request_cases hs with ⟨role, offer, rfl⟩ | ⟨leaving, rfl⟩ | ⟨candidate, rfl⟩
      · rcases prepare_spec b.coordinator s role offer with ⟨a, snapshot, c', hp, _⟩ | ⟨fault, hp⟩
        · simp [serve, hp] at hnotice
        · simp only [serve, hp, List.mem_singleton] at hnotice
          rw [hnotice]
      · rw [show (serve b.coordinator _ (.stop s leaving)).notices = [] from
          Coordinator.stopTask_notices ..] at hnotice
        cases hnotice
      · rcases b.coordinator.registry.submit_cases s candidate with ⟨_, _, _, _, _, _, hr⟩ | ⟨_, hr⟩
        · simp [serve, Coordinator.submit, hr] at hnotice
        · simp [serve, Coordinator.submit, hr] at hnotice
    | @turn b t task ht hturn =>
      cases task with
      | negotiation n stage => exact absurd rfl (hno n stage)
      | stop | apply => cases hnotice
      | shutdown | mixRequest | mixWithdrawal => cases hs
    | @reply b t task call reply =>
      cases task with
      | negotiation n stage => exact absurd rfl (hno n stage)
      | stop s' leaving d =>
        rw [show (b.coordinator.stepReply t (.stop s' leaving d) reply).notices = [] from
          Coordinator.stopTask_notices ..] at hnotice
        cases hnotice
      | apply => cases hnotice
      | shutdown | mixRequest | mixWithdrawal => cases hs

/-- A client leaves in a step that is taken for its session. -/
theorem session_of_left (hleft : x.result.task = .done (.left s)) : x.session? = some s := by
  by_cases hn : ∃ n stage, x.was = some (.negotiation n stage)
  · obtain ⟨n, stage, hwas⟩ := hn
    exact absurd hleft (hx.negotiation_result h hwas).2
  · have hno : ∀ n stage, x.was ≠ some (.negotiation n stage) := fun n stage hwas => hn ⟨n, stage, hwas⟩
    cases hx with
    | @request b q =>
      cases q with
      | prepare s' role offer =>
        exact absurd hleft (serve_not_left b.coordinator ⟨b.nextTask⟩ (.join role offer) s' s)
      | stop s' leaving => exact congrArg some (Coordinator.stopTask_left hleft).symm
      | submit s' candidate =>
        exact absurd hleft (serve_not_left b.coordinator ⟨b.nextTask⟩ (.candidate candidate) s' s)
      | shutdown order => exact absurd hleft (Coordinator.shutdownFrom_not_left _ _ _ _)
      | requestMix => exact absurd hleft (Coordinator.mixRequested_not_left _ s _)
      | withdrawMix => exact absurd hleft (Coordinator.mixWithdrawn_not_left _ s _)
    | turn =>
      obtain ⟨n, stage, rfl⟩ := Coordinator.stepTurn_left hleft
      exact absurd rfl (hno n stage)
    | reply =>
      rcases Coordinator.stepReply_left hleft with ⟨n, stage, rfl⟩ | ⟨leaving, d, rfl⟩
      · exact absurd rfl (hno n stage)
      · rfl

/-! ### What belongs to others -/

section Others
variable (hp : x.before.Subscribed) (hs : x.session? = some s) {s' : SessionId} (hne : s ≠ s')
include hp hs hne

theorem sameFor_others :
    Registry.SameFor s' x.before.coordinator.registry x.after.coordinator.registry := by
  rw [hx.registry_after h]
  exact Registry.sameFor_after hne fun call hcall => (hx.session_of_calls h hp hs hcall).1

theorem superseded_others
    (hac : Registry.Accounted (deeds x.before.log) x.before.coordinator.registry)
    (hac' : Registry.Accounted (deeds x.after.log) x.after.coordinator.registry) {a : Attempt}
    (ha : x.after.Prepared s' a) :
    x.after.coordinator.registry.superseded.get? a =
      x.before.coordinator.registry.superseded.get? a := by
  have hother : ¬ x.after.Prepared s a := fun hprepared => hne (hac'.session_eq hprepared ha)
  rw [hx.registry_after h]
  apply hac.superseded_after fun call hcall => (hx.session_of_calls h hp hs hcall).1
  · intro call hcall hnamed
    exact hother ((hx.session_of_calls h hp hs hcall).2 a hnamed).after
  · rw [← x.deeds_after]
    exact hother

end Others

/-! ### What nothing of a session can bring about -/

section Silent
variable (hsilent : x.action.message? s = none)
include hsilent

/-- Only a request of the session prepares an attempt for it. -/
theorem prepared_before {a : Attempt} (hprepared : x.after.Prepared s a) : x.before.Prepared s a := by
  unfold Prepared at hprepared
  rw [x.deeds_after, Registry.issued, List.flatMap_append] at hprepared
  rcases List.mem_append.mp hprepared with hold | hnew
  · exact hold
  · obtain ⟨d, hd, hissued⟩ := List.mem_flatMap.mp hnew
    obtain ⟨role, hcall⟩ := Registry.Deed.call_of_issued hissued
    have hmem : Registry.Call.register s role ∈ x.calls := hcall ▸ Registry.call_of_mem_log hd
    obtain ⟨offer, ha⟩ := hx.prepares_of_registers h hmem
    rw [ha] at hsilent
    simp [Action.message?] at hsilent

theorem queue_none (hqueue : x.before.coordinator.registry.buffer.queues.get? s = none) :
    x.after.coordinator.registry.buffer.queues.get? s = none := by
  rw [hx.registry_after h]
  apply Registry.queue_none_after hqueue
  intro c hc
  cases hsilent.symm.trans (hx.message?_of_submits h hc)

end Silent

end Episode.Occurs

/-- The task that ends a stop has an entry of the session in hand. -/
theorem stop_prepared (actions : List Action) : ∀ t s leaving d,
    (run {} actions).tasks.get? t = some (.stop s leaving d) →
    (run {} actions).Prepared s d.entry.attempt := by
  refine later_induction (P := fun _ b => ∀ t s leaving d, b.tasks.get? t = some (.stop s leaving d) →
    b.Prepared s d.entry.attempt) [] (fun _ _ _ _ ht => by cases ht) ?_
  rintro _ x hold ⟨earlier, hbefore⟩ hx _ t s leaving d ht
  have h : x.before.Consistent := hbefore ▸ consistent earlier
  have hac := hbefore ▸ accounted earlier
  apply Prepared.after
  rw [x.get?_after] at ht
  split at ht
  · cases hwas : x.was with
    | none =>
      cases hx with
      | @request b q =>
        have hbegins := serve_begins ht
        cases hbegins with
        | stop =>
          have hstop := Coordinator.stopTask_ongoing ht
          exact hac.current_issued s d.entry (Coordinator.stop_entry hstop)
      | turn | reply => cases hwas
    | some task =>
      have hcontinues := hx.continues h hwas ht
      cases hcontinues with
      | @stop _ _ d' =>
        have htask := (hx.taken h).task.trans hwas
        have hentry : d.entry = d'.entry := by
          cases hx with
          | request => cases hwas
          | turn ht' hturn =>
            cases hwas
            cases ht
            rfl
          | reply =>
            cases hwas
            exact Coordinator.release_entry (Coordinator.stopTask_ongoing ht)
        rw [hentry]
        exact hold x.task s leaving d' htask
  · exact hold t s leaving d ht

theorem worksFor_of_teardown {actions : List Action} {t : TaskId} {task : Task} {d : Teardown}
    (ht : (run {} actions).tasks.get? t = some task) (hd : task.teardown? = some d) {s : SessionId}
    (hs : (run {} actions).Prepared s d.entry.attempt) : (run {} actions).WorksFor s task := by
  have hac := accounted actions
  have hdown := takesDown actions t task d ht hd
  cases task with
  | negotiation n stage =>
    have hprepared := (subscribed actions).prepared t n stage ht
    rw [← hdown.own n stage rfl] at hprepared
    exact .negotiation (hac.session_eq hprepared hs)
  | stop s' leaving d' =>
    cases hd
    obtain rfl := hac.session_eq (stop_prepared actions t s' leaving d ht) hs
    exact .stop
  | shutdown stage =>
    cases stage with
    | stopping d' left =>
      cases hd
      exact .shutdown hs
    | withdrawing => cases hd
  | apply | mixRequest | mixWithdrawal => cases hd

/-- What is known of a session from a stop on, as long as nothing comes from it. -/
structure Departed (b : Broadcast) (s : SessionId) : Prop where
  stopped : ∀ e ∈ b.coordinator.registry.entries, b.Prepared s e.attempt → e.stopped
  queue : b.coordinator.registry.buffer.queues.get? s = none

namespace Departed
variable {s : SessionId}

theorem of_stop {x : Episode} (hx : x.Occurs) {leaving : Bool}
    (ha : x.action = .request (.stop s leaving)) (h : x.before.Consistent)
    (hac : Registry.Accounted (deeds x.after.log) x.after.coordinator.registry) : x.after.Departed s := by
  have hcalls : x.calls = [s].map .stop := (hx.calls_of_request ha).2
  have hreg := hx.registry_after h
  rw [hcalls] at hreg
  constructor
  · intro e he hprepared
    rw [hreg] at he hac
    exact h.wellFormed.issued_stopped_of_stops (List.mem_singleton_self s) hac he hprepared
  · rw [hreg, Registry.queue_stops]
    exact if_pos (List.mem_singleton_self s)

theorem step {x : Episode} (hd : x.before.Departed s) (hx : x.Occurs) (h : x.before.Consistent)
    (hac : Registry.Accounted (deeds x.before.log) x.before.coordinator.registry)
    (hsilent : x.action.message? s = none) : x.after.Departed s := by
  constructor
  · intro e he hprepared
    have hbefore := hx.prepared_before h hsilent hprepared
    rw [hx.registry_after h] at he
    apply h.wellFormed.stopped_after x.calls (hac.issued_le s _ hbefore) ?_ e he rfl
    intro e₀ he₀ ha
    exact hd.stopped e₀ he₀ (ha ▸ hbefore)
  · exact hx.queue_none h hsilent hd.queue

/-- A session is departed after every run in which nothing comes from it after a stop. -/
theorem since_stop (before : List Action) (leaving : Bool) {after : List Action}
    (hafter : ∀ a ∈ after, a.message? s = none) :
    (run {} (before ++ .request (.stop s leaving) :: after)).Departed s := by
  have hsplit : before ++ .request (.stop s leaving) :: after =
      (before ++ [.request (.stop s leaving)]) ++ after := by simp
  rw [hsplit, run_append_run]
  refine later_induction (P := fun _ b => b.Departed s) (before ++ [.request (.stop s leaving)]) ?_ ?_
  · have hepisode : (run {} before).episode? (.request (.stop s leaving)) = some _ := rfl
    obtain ⟨_, hx, hbefore, ha⟩ := step?_of_episode? hepisode
    have hac := accounted (before ++ [.request (.stop s leaving)])
    rw [run_append, step_of_episode? hepisode] at hac ⊢
    exact of_stop hx ha (consistent before) hac
  · rintro _ x hd ⟨earlier, hbefore⟩ hx hmem
    exact hd.step hx (hbefore ▸ consistent earlier) (hbefore ▸ accounted earlier) (hafter _ hmem)

end Departed

/-- Nothing is left of a session. -/
structure Gone (b : Broadcast) (s : SessionId) : Prop where
  tables : ∀ role, (b.coordinator.registry.table role).get? s = none
  queue : b.coordinator.registry.buffer.queues.get? s = none
  superseded : ∀ a, b.Prepared s a → b.coordinator.registry.superseded.get? a = none
  /-- No entry of the session is among those that the gauges show. -/
  shown : ∀ e ∈ b.shown, ¬ b.Prepared s e.attempt
  released : ∀ a kind id, b.Prepared s a → kind.isMedia → (a, kind, id) ∈ madeFor b.log →
    (releases b.log).count id = 1

section Done
variable {actions : List Action} {s : SessionId}
  (hdone : ∀ t task, (run {} actions).tasks.get? t = some task → ¬ (run {} actions).WorksFor s task)
include hdone

theorem not_prepared_of_inHand {e : Entry}
    (he : e ∈ (run {} actions).tasks.contents.bind fun task => inHand (some task)) :
    ¬ (run {} actions).Prepared s e.attempt := by
  intro hprepared
  obtain ⟨task, htask, hhand⟩ := Multiset.mem_bind.mp he
  obtain ⟨t, ht⟩ := (Table.mem_contents_iff (consistent actions).tasks_distinct task).mp htask
  obtain ⟨d, hd, rfl⟩ : ∃ d, task.teardown? = some d ∧ d.entry = e := by
    simpa [inHand] using hhand
  exact hdone t task ht (worksFor_of_teardown ht hd hprepared)

/-- An entry of a departed session is pending, so its negotiation is still there. -/
theorem Departed.not_prepared (hd : (run {} actions).Departed s) {e : Entry}
    (he : e ∈ (run {} actions).coordinator.registry.entries) :
    ¬ (run {} actions).Prepared s e.attempt := by
  intro hprepared
  have h := consistent actions
  have hpending := h.wellFormed.stopped_pending e he (hd.stopped e he hprepared)
  obtain ⟨t, n, stage, ⟨ht, _⟩, ha⟩ := h.pending_led e he hpending
  have hleader := (subscribed actions).prepared t n stage ht
  rw [ha] at hleader
  exact hdone t _ ht (.negotiation ((accounted actions).session_eq hleader hprepared))

theorem Departed.gone (hd : (run {} actions).Departed s) : (run {} actions).Gone s := by
  have hentries := fun e => hd.not_prepared (e := e) hdone
  have hhand := fun e => not_prepared_of_inHand (e := e) hdone
  refine ⟨?_, hd.queue, ?_, ?_, ?_⟩
  · intro role
    cases hentry : ((run {} actions).coordinator.registry.table role).get? s with
    | none => rfl
    | some e =>
      have hcurrent := (consistent actions).wellFormed.entry?_of_table hentry
      exact absurd ((accounted actions).current_issued s e hcurrent)
        (hentries e (Registry.mem_entries_of_table hentry))
  · intro a hprepared
    cases hentry : (run {} actions).coordinator.registry.superseded.get? a with
    | none => rfl
    | some e =>
      have ha := (consistent actions).wellFormed.superseded_key a e hentry
      exact absurd (ha ▸ hprepared) (hentries e (Registry.mem_entries_of_superseded hentry))
  · intro e he
    rcases Multiset.mem_add.mp he with hstored | hheld
    · exact hentries e hstored
    · exact hhand e hheld
  · intro a kind id hprepared hkind hmade
    have ac := accounts actions
    rcases ac.media_cases (media_of_madeFor hmade hkind) with hcount | hstored | hwaits
    · exact hcount
    · obtain ⟨e, he, hid⟩ := Registry.mem_objects_iff.mp hstored
      obtain ⟨kind', hkind', hholds⟩ := holds_of_mem hid
      have hown := (ac.carried e he kind' id hkind').mp hholds
      obtain ⟨ha, _⟩ := ac.madeFor_eq hown hmade
      exact absurd (ha ▸ hprepared) (hentries e he)
    · obtain ⟨t, task, d, ht, hd, hrest⟩ := (consistent actions).of_waiting hwaits
      have ha := (takesDown actions t task d ht hd).attempt_eq ac (List.mem_cons_of_mem _ hrest) hmade
      exact absurd (worksFor_of_teardown ht hd (ha.symm ▸ hprepared)) (hdone t task ht)

end Done

end Broadcast

end Rostrum
