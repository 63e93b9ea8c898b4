import Rostrum.Proofs.Broadcast.Silence

/-!
# Candidates of the engine after a stop

The engine hands a candidate of an endpoint to the session that listens to it, from the subscription until
it has released the endpoint. A stop ends neither. A negotiation that was stopped does not subscribe any
more; but an endpoint that was subscribed before is heard until the negotiation, or the teardown that the
stop began, has had it released.
-/

namespace Rostrum

/-- Whether a task leads the negotiation of an attempt or takes down its entry. -/
def Task.Concerns (a : Attempt) : Task → Prop
  | .negotiation n _ => n.attempt = a
  | task => ∃ d, task.teardown? = some d ∧ d.entry.attempt = a

/-- Whether only a negotiation makes a call. -/
def EngineCall.negotiates {L : Type} : EngineCall L → Bool
  | .createEndpoint _ => true
  | .createPort _ => true
  | .connect _ _ => true
  | .subscribe _ _ => true
  | .processOffer _ _ => true
  | .gather _ => true
  | _ => false

namespace Broadcast

/-- The session that is to listen to an endpoint from an event on. -/
def Event.subscribed? : Event → Option (SessionId × Endpoint)
  | .issued _ task =>
    match task.call? with
    | some (.subscribe endpoint s) => some (s, endpoint)
    | _ => none
  | _ => none

/-- The object that the engine has released when an event comes. -/
def Event.freed? : Event → Option ObjectId
  | .replied _ task (.ok _) => task.call?.bind EngineCall.released?
  | _ => none

def subscriptions (log : List Event) : List (SessionId × Endpoint) := log.filterMap Event.subscribed?

def freed (log : List Event) : List ObjectId := log.filterMap Event.freed?

/-- What comes of a candidate that the engine may find for an endpoint. -/
inductive Finds (b : Broadcast) (endpoint : Endpoint) : Notice → Prop where
  | candidate {s : SessionId} {c : Candidate} : (s, endpoint) ∈ subscriptions b.log →
      endpoint.id ∉ freed b.log → Finds b endpoint ⟨s, .candidate c⟩

theorem mem_subscriptions {log : List Event} {s : SessionId} {endpoint : Endpoint} :
    (s, endpoint) ∈ subscriptions log ↔
      ∃ t task, .issued t task ∈ log ∧ task.call? = some (.subscribe endpoint s) := by
  constructor
  · intro h
    obtain ⟨event, he, hsubscribed⟩ := List.mem_filterMap.mp h
    cases event with
    | called | replied => cases hsubscribed
    | issued t task =>
      simp only [Event.subscribed?] at hsubscribed
      split at hsubscribed
      · rename_i hcall
        cases hsubscribed
        exact ⟨t, task, he, hcall⟩
      · cases hsubscribed
  · rintro ⟨t, task, he, hcall⟩
    exact List.mem_filterMap.mpr ⟨_, he, by simp [Event.subscribed?, hcall]⟩

theorem mem_freed {log : List Event} {t : TaskId} {task : Task} {text : String} {id : ObjectId}
    (h : .replied t task (.ok text) ∈ log) (hcall : task.call? = some (.release id)) : id ∈ freed log :=
  List.mem_filterMap.mpr ⟨_, h, by simp [Event.freed?, hcall, EngineCall.released?]⟩

/-- Only negotiations make certain calls. -/
theorem negotiation_of_call {task : Task} {call : EngineCall SessionId} (h : task.call? = some call)
    (hnegotiates : call.negotiates) : ∃ n stage, task = .negotiation n stage := by
  cases task with
  | negotiation n stage => exact ⟨n, stage, rfl⟩
  | shutdown stage =>
    cases stage with
    | stopping =>
      cases h
      cases hnegotiates
    | withdrawing stage => cases stage <;> cases h <;> cases hnegotiates
  | mixRequest stage => cases stage <;> cases h <;> cases hnegotiates
  | mixWithdrawal stage => cases stage <;> cases h <;> cases hnegotiates
  | stop | apply =>
    cases h
    cases hnegotiates

theorem subscribing_of_call {task : Task} {endpoint : Endpoint} {s : SessionId}
    (h : task.call? = some (.subscribe endpoint s)) :
    ∃ n, task = .negotiation n (.subscribing endpoint) ∧ n.session = s := by
  obtain ⟨n, stage, rfl⟩ := negotiation_of_call h rfl
  cases stage with
  | subscribing endpoint =>
    cases h
    exact ⟨n, rfl, rfl⟩
  | obtainingMix request => cases request <;> cases h
  | connecting endpoint port =>
    cases hrole : n.role <;> simp [Task.call?, NegotiationStage.call?, hrole] at h
  | _ => cases h

/-- What the log shows of negotiations and of those that have subscribed. -/
structure Subscribed (b : Broadcast) : Prop where
  prepared : ∀ t n stage, b.tasks.get? t = some (.negotiation n stage) → b.Prepared n.session n.attempt
  made : ∀ t n endpoint, .issued t (.negotiation n (.subscribing endpoint)) ∈ b.log →
    (n.attempt, .endpoint, endpoint.id) ∈ madeFor b.log
  own : ∀ t n endpoint, .issued t (.negotiation n (.subscribing endpoint)) ∈ b.log →
    b.Prepared n.session n.attempt

/-- What the log shows of negotiations that have called the engine. -/
structure Enrolled (b : Broadcast) : Prop where
  prepared : ∀ t n stage, b.tasks.get? t = some (.negotiation n stage) → b.Prepared n.session n.attempt
  own : ∀ t n stage, .issued t (.negotiation n stage) ∈ b.log → b.Prepared n.session n.attempt
  made : ∀ t n stage endpoint, .issued t (.negotiation n stage) ∈ b.log → stage.Drained endpoint →
    (n.attempt, .endpoint, endpoint.id) ∈ madeFor b.log

namespace Episode.Occurs
variable {x : Episode} (hx : x.Occurs) (h : x.before.Consistent)
include hx h

theorem prepared_left (hp : x.before.Enrolled) {n : Negotiation} {stage : NegotiationStage}
    (hleft : x.left = some (.negotiation n stage)) : x.after.Prepared n.session n.attempt := by
  rcases hx.negotiation_origin h hleft with ⟨stage', hwas⟩ | ⟨hwas, rfl, _⟩
  · exact (hp.prepared x.task n stage' ((hx.taken h).task.trans hwas)).after
  · have hmove := (hx.taken h).follows.move
    rw [← left, hwas, hleft] at hmove
    rw [Prepared, x.deeds_after, Registry.issued, List.flatMap_append]
    refine List.mem_append_right _ ?_
    generalize x.calls = calls at hmove
    generalize x.action.reply? = reply at hmove
    cases hmove with
    | enters hentered => simp [Registry.log, Registry.Deed.issued, Registry.Deed.answer, hentered]
    | disposes _ hd => cases hd.not_live rfl

theorem enrolled (ac : x.after.Accounts) (hp : x.before.Enrolled) : x.after.Enrolled := by
  have hafter : x.after.Consistent := h.take (hx.taken h).task (hx.taken h).follows
  have hprepared : ∀ t n stage, x.after.tasks.get? t = some (.negotiation n stage) →
      x.after.Prepared n.session n.attempt := by
    intro t n stage ht
    rw [x.get?_after] at ht
    split at ht
    · exact hx.prepared_left h hp ht
    · exact (hp.prepared t n stage ht).after
  have hissued : ∀ t task, .issued t task ∈ x.after.log →
      .issued t task ∈ x.before.log ∨ x.after.tasks.get? t = some task := by
    intro t task hm
    rcases issued_cases_take hm with hm | ⟨rfl, hleft, _⟩
    · exact Or.inl hm
    · exact Or.inr ((x.get?_after x.task).trans ((if_pos rfl).trans hleft))
  refine ⟨hprepared, fun t n stage hm => ?_, fun t n stage endpoint hm hdrained => ?_⟩
  · rcases hissued t _ hm with hold | hwaits
    · exact (hp.own t n stage hold).after
    · exact hprepared t n _ hwaits
  · rcases hissued t _ hm with hold | hwaits
    · exact madeFor_subset_take (hp.made t n stage endpoint hold hdrained)
    · -- the entry holds the endpoint, and what it holds was made for the attempt
      obtain ⟨e, he, _, hfits⟩ :=
        hafter.hasEntry t n stage ⟨hwaits, NegotiationStage.isLive_of_drained hdrained⟩
      obtain ⟨hm, ha⟩ := hafter.wellFormed.mem_of_attempt? he
      rw [← ha]
      exact (ac.carried e hm .endpoint endpoint.id rfl).mp
        ((NegotiationStage.fits_of_drained hdrained).mp hfits).1

end Episode.Occurs

theorem enrolled (actions : List Action) : (run {} actions).Enrolled := by
  refine (history_induction (P := fun _ b => b.Accounts ∧ b.Enrolled)
    ⟨accounts_empty, fun _ _ _ h => (by cases h), fun _ _ _ h => (by cases h),
      fun _ _ _ _ h => (by cases h)⟩ ?_ actions).2
  rintro _ x ⟨ac, hp⟩ h hx
  have ht := hx.taken h
  have ac' : x.after.Accounts := ac.take h ht.task ht.follows ht.fresh
  exact ⟨ac', hx.enrolled h ac' hp⟩

theorem subscribed (actions : List Action) : (run {} actions).Subscribed where
  prepared := (enrolled actions).prepared
  made t n endpoint hm := (enrolled actions).made t n _ endpoint hm .subscribing
  own t n _ hm := (enrolled actions).own t n _ hm

theorem TakesDown.concerns {b : Broadcast} (ac : b.Accounts) {task : Task} {d : Teardown}
    (hdown : b.TakesDown task d) (hd : task.teardown? = some d) {id : ObjectId}
    (hid : id ∈ d.object :: d.rest) {a : Attempt} {kind : ObjectKind}
    (hm : (a, kind, id) ∈ madeFor b.log) : task.Concerns a := by
  have ha := hdown.attempt_eq ac hid hm
  cases task with
  | negotiation n stage => exact (hdown.own n stage rfl).symm.trans ha
  | _ => exact ⟨d, hd, ha⟩

/-- An endpoint or a port whose release was asked for is released, or refused, or the task still waits. -/
theorem asked_release_cases {actions : List Action} {a : Attempt} {kind : ObjectKind} {id : ObjectId}
    (hkind : kind.isMedia) (hm : (a, kind, id) ∈ madeFor (run {} actions).log)
    (hasked : id ∈ releases (run {} actions).log) :
    id ∈ freed (run {} actions).log ∨
      (∃ t task fault, .replied t task (.error fault) ∈ (run {} actions).log ∧
        task.call? = some (.release id)) ∨
      ∃ t task, (run {} actions).tasks.get? t = some task ∧ task.Concerns a := by
  have ac := accounts actions
  obtain ⟨event, hevent, hid⟩ := List.mem_filterMap.mp hasked
  have hdisposed := ac.disposed_of_released hevent hid (media_of_madeFor hm hkind)
  obtain ⟨t, task, rfl⟩ := issued_of_disposed hdisposed
  obtain ⟨d, hd, rfl⟩ := Option.map_eq_some_iff.mp hdisposed
  have hcall := Task.call?_of_teardown? hd
  rcases (answered_or_waiting actions t task hevent).2 with ⟨reply, hreplied⟩ | hwaits
  · cases reply with
    | ok text => exact Or.inl (mem_freed hreplied hcall)
    | error fault => exact Or.inr (Or.inl ⟨t, task, fault, hreplied, hcall⟩)
  · have hdown := takesDown actions t task d hwaits hd
    exact Or.inr (Or.inr ⟨t, task, hwaits, hdown.concerns ac hd List.mem_cons_self hm⟩)

section Stops
variable {actions : List Action} {x : Episode} (hx : x ∈ history {} actions) {s : SessionId}
  (hstop : .stop s ∈ x.calls) (later : List Action)
include hx hstop

theorem subscribed_before {t : TaskId} {n : Negotiation} {endpoint : Endpoint}
    (hm : .issued t (.negotiation n (.subscribing endpoint)) ∈ (x.after.run later).log)
    (hprepared : x.before.Prepared s n.attempt) :
    .issued t (.negotiation n (.subscribing endpoint)) ∈ x.before.log := by
  obtain ⟨hoccurs, earlier, _, _, hbefore, hafter⟩ := occurs_of_mem hx
  have h : x.before.Consistent := hbefore ▸ consistent earlier
  have hnew : ∀ y : Episode, .issued t (.negotiation n (.subscribing endpoint)) ∈ y.after.log →
      .issued t (.negotiation n (.subscribing endpoint)) ∈ y.before.log ∨
        y.left = some (.negotiation n (.subscribing endpoint)) :=
    fun y hy => (issued_cases_take hy).imp_right fun hnew => hnew.2.1
  have hstart := hoccurs.silences h hstop (hafter ▸ accounted _)
  have hfirst : .issued t (.negotiation n (.subscribing endpoint)) ∈ x.after.log →
      .issued t (.negotiation n (.subscribing endpoint)) ∈ x.before.log := fun hm =>
    (hnew x hm).resolve_right fun hleft => hoccurs.not_negotiation_of_stop h hstop hleft
  generalize x.before = stop at *
  rw [hafter] at hstart hfirst hm
  refine (later_induction _ (P := fun _ b => Silenced stop s b ∧
    (.issued t (.negotiation n (.subscribing endpoint)) ∈ b.log →
      .issued t (.negotiation n (.subscribing endpoint)) ∈ stop.log)) ⟨hstart, hfirst⟩ ?_).2 hm
  rintro _ y ⟨hsil, hold⟩ ⟨before, hy⟩ hoccurs _
  have hc : y.before.Consistent := hy ▸ consistent before
  refine ⟨hsil.step hc hoccurs, fun hm => hold ((hnew y hm).resolve_right fun hleft => ?_)⟩
  -- a silenced negotiation waits for the mix or releases, and neither is a subscription
  rcases hoccurs.negotiation_origin hc hleft with ⟨stage, hwas⟩ | ⟨_, hstage, _⟩
  · rcases hsil.left_cases hc hoccurs hwas hprepared hleft with ⟨_, hstage⟩ | ⟨_, _, _, _, hstage, _⟩ <;>
      cases hstage
  · cases hstage

/-- What was made for a negotiation that a stop found is being taken down, or its release was asked for. -/
theorem stopped_media {a : Attempt} {kind : ObjectKind} {id : ObjectId} (hkind : kind.isMedia)
    (hm : (a, kind, id) ∈ madeFor (x.after.run later).log) (hprepared : x.before.Prepared s a) :
    (releases (x.after.run later).log).count id = 1 ∨
      ∃ t task, (x.after.run later).tasks.get? t = some task ∧ task.Concerns a := by
  have hsil := silenced_run hx hstop later
  obtain ⟨_, _, _, _, _, hafter⟩ := occurs_of_mem hx
  rw [hafter, ← run_append_run] at hm hsil ⊢
  generalize _ ++ later = all at hm hsil ⊢
  have h := consistent all
  have ac := accounts all
  rcases ac.media_cases (media_of_madeFor hm hkind) with hone | hstored | hwaits
  · exact Or.inl hone
  · -- its entry is stopped, so it is still pending and a negotiation leads it
    obtain ⟨e, he, hid⟩ := Registry.mem_objects_iff.mp hstored
    obtain ⟨kind', hkind', hheld⟩ := holds_of_mem hid
    obtain ⟨rfl, _⟩ := ac.madeFor_eq ((ac.carried e he kind' id hkind').mp hheld) hm
    have hpending := h.wellFormed.stopped_pending e he (hsil.stopped e he hprepared)
    obtain ⟨t, n, stage, hleads, ha⟩ := h.pending_led e he hpending
    exact Or.inr ⟨t, _, hleads.1, ha⟩
  · obtain ⟨t, task, d, ht, hd, hid⟩ := h.of_waiting hwaits
    have hdown := takesDown all t task d ht hd
    exact Or.inr ⟨t, task, ht, hdown.concerns ac hd (List.mem_cons_of_mem _ hid) hm⟩

/--
After a stop, a candidate of the engine reaches the session from an endpoint that was made for one of its
own negotiations. If that negotiation was prepared before the stop, it had subscribed before the stop
already, and a task that concerns it is still at work, or the engine refused the one release of the
endpoint that was asked for. So when those tasks are done and no release was refused, the session hears
only of endpoints of negotiations that it began after the stop.
-/
theorem candidates_after_stop {endpoint : Endpoint} {notice : Notice}
    (hfinds : (x.after.run later).Finds endpoint notice) (hs : notice.session = s) :
    ∃ a, (a, .endpoint, endpoint.id) ∈ madeFor (x.after.run later).log ∧
      (x.after.run later).Prepared s a ∧
      (x.before.Prepared s a → (s, endpoint) ∈ subscriptions x.before.log ∧
        ((∃ t task, (x.after.run later).tasks.get? t = some task ∧ task.Concerns a) ∨
          (releases (x.after.run later).log).count endpoint.id = 1 ∧
          ∃ t task fault, .replied t task (.error fault) ∈ (x.after.run later).log ∧
            task.call? = some (.release endpoint.id))) := by
  obtain ⟨_, _, _, _, _, hafter⟩ := occurs_of_mem hx
  have hmedia := @stopped_media actions x hx s hstop later
  have hbefore := @subscribed_before actions x hx s hstop later
  cases hfinds with
  | @candidate s' c hlistens hheard =>
    obtain rfl : s' = s := hs
    obtain ⟨t, task, hissued, hcall⟩ := mem_subscriptions.mp hlistens
    obtain ⟨n, rfl, hn⟩ := subscribing_of_call hcall
    rw [hafter, ← run_append_run] at hissued hheard hmedia hbefore ⊢
    generalize _ ++ later = all at hissued hheard hmedia hbefore ⊢
    have hm := (subscribed all).made t n endpoint hissued
    refine ⟨n.attempt, hm, hn ▸ (subscribed all).own t n endpoint hissued, fun hprepared => ?_⟩
    refine ⟨mem_subscriptions.mpr ⟨t, _, hbefore hissued hprepared, hcall⟩, ?_⟩
    rcases hmedia rfl hm hprepared with hone | hworks
    · have hasked := List.count_pos_iff.mp (Nat.lt_of_lt_of_eq Nat.one_pos hone.symm)
      rcases asked_release_cases rfl hm hasked with hreleased | hrefused | hworks
      · exact (hheard hreleased).elim
      · exact Or.inr ⟨hone, hrefused⟩
      · exact Or.inl hworks
    · exact Or.inl hworks

end Stops

/-- A presenter is stopped while its offer is answered, and begins again as a viewer. -/
def beginsAgain : List Action × List Action :=
  ([.request (.prepare ⟨1⟩ .presenter "offer"), .turn ⟨0⟩, .reply ⟨0⟩ (.ok "pipeline"),
      .reply ⟨0⟩ (.ok "mixer"), .reply ⟨0⟩ (.ok "endpoint"), .reply ⟨0⟩ (.ok "port"),
      .reply ⟨0⟩ (.ok ""), .reply ⟨0⟩ (.ok ""), .request (.stop ⟨1⟩ false)],
    [.request (.prepare ⟨1⟩ .viewer "anew"), .turn ⟨2⟩])

/-- A candidate of the first endpoint reaches the client while the first negotiation is at work. -/
theorem heard_while_at_work :
    ∃ x ∈ history {} beginsAgain.1, .stop ⟨1⟩ ∈ x.calls ∧
      (x.after.run beginsAgain.2).Finds ⟨⟨"endpoint"⟩⟩ ⟨⟨1⟩, .candidate { line := "late" }⟩ ∧
      ∃ t task, (x.after.run beginsAgain.2).tasks.get? t = some task ∧ task.Concerns ⟨1⟩ := by
  have hx := List.mem_of_getElem? (l := history {} beginsAgain.1) (i := 8) rfl
  have hstop := List.mem_singleton_self (Registry.Call.stop ⟨1⟩)
  have hfinds : (run {} (beginsAgain.1 ++ beginsAgain.2)).Finds ⟨⟨"endpoint"⟩⟩
      ⟨⟨1⟩, .candidate { line := "late" }⟩ := .candidate (by decide) (by decide)
  refine ⟨_, hx, hstop, hfinds, ?_⟩
  have hmade : (⟨1⟩, .endpoint, ⟨"endpoint"⟩) ∈ madeFor (run {} (beginsAgain.1 ++ beginsAgain.2)).log :=
    List.mem_of_getElem? (i := 2) rfl
  obtain ⟨a, hm, _, hold⟩ := candidates_after_stop hx hstop beginsAgain.2 hfinds rfl
  obtain ⟨rfl, _⟩ := (accounts (beginsAgain.1 ++ beginsAgain.2)).madeFor_eq hm hmade
  refine (hold (List.mem_of_getElem? (i := 0) rfl)).2.resolve_right ?_
  rintro ⟨hone, _⟩
  cases hone

/-- A client that has begun again is handed a candidate of the endpoint it had before. -/
theorem stale_candidate_after_stop :
    ¬ ∀ (actions later : List Action), ∀ x ∈ history {} actions, ∀ s, .stop s ∈ x.calls →
      ∀ a endpoint notice, x.before.Prepared s a →
        (a, .endpoint, endpoint.id) ∈ madeFor (x.after.run later).log →
        (x.after.run later).Finds endpoint notice → notice.session ≠ s := by
  intro hclaim
  refine hclaim beginsAgain.1 beginsAgain.2 _ (List.mem_of_getElem? (i := 8) rfl) ⟨1⟩
    (List.mem_singleton_self _) ⟨1⟩ ⟨⟨"endpoint"⟩⟩ ⟨⟨1⟩, .candidate { line := "late" }⟩
    (List.mem_of_getElem? (i := 0) rfl) (List.mem_of_getElem? (i := 2) rfl) ?_ rfl
  exact .candidate (by decide) (by decide)

end Broadcast
end Rostrum
