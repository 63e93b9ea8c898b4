import Rostrum.Proofs.Broadcast.Relay
import Rostrum.Proofs.Broadcast.Roles
import Rostrum.Proofs.Broadcast.Teardowns

/-!
# Candidates since the last stop

What a session sends after it asked to be stopped is meant for the endpoint that it gets next. It waits
for that endpoint also while no negotiation of the session is under way, and a superseded negotiation
leaves it alone. But a negotiation that was stopped, and that comes to give up before the session begins
again, removes the queue with its entry: the candidates that wait then are lost. Up to these, a session
that takes part has had given to its endpoint what it has sent since its last stop, in order.
-/

namespace Rostrum

/-- The candidate that a task gives to an endpoint. -/
def Task.gives? (endpoint : Endpoint) (task : Task) : Option Candidate :=
  match task.call? with
  | some (.addCandidate endpoint' c) => if endpoint' = endpoint then some c else none
  | _ => none

namespace Broadcast

def Event.stops (s : SessionId) : Event → Bool
  | .called ⟨_, .stop s'⟩ => s' = s
  | _ => false

/-- The candidates of a session that still wait when its current entry is removed. -/
def Event.lost (s : SessionId) : Event → List Candidate
  | .called ⟨r, .remove s' a⟩ => if s' = s ∧ r.isCurrent s a then r.buffer.waiting s else []
  | _ => []

/-- The candidates of a session that were lost since it was last stopped. -/
def lost (s : SessionId) (log : List Event) : List Candidate :=
  (log.rtakeWhile fun event => !event.stops s).flatMap (Event.lost s)

def Event.given? (endpoint : Endpoint) : Event → Option Candidate
  | .issued _ task => task.gives? endpoint
  | _ => none

/-- The candidates that were ever given to an endpoint. -/
def given (endpoint : Endpoint) (log : List Event) : List Candidate :=
  log.filterMap (Event.given? endpoint)

/-! ## What was sent was submitted or is lost -/

section Lost
variable {s : SessionId} {b : Broadcast} {t : TaskId} {before : Option Task} {reply : Option Reply}
  {calls : List Registry.Call} {result : StepResult}

theorem Event.lost_of_not_clears {d : Registry.Deed} (h : d.call.clears d.before s = false) :
    (Event.called d).lost s = [] := by
  obtain ⟨r, call⟩ := d
  cases call with
  | remove s' a =>
    have hno : ¬ (s' = s ∧ r.isCurrent s a) := by simpa [Registry.Call.clears] using h
    exact if_neg hno
  | _ => rfl

theorem lost_takeEvents (r : Registry) (t : TaskId) (before : Option Task) (reply : Option Reply)
    (calls : List Registry.Call) (after : Option Task) :
    (takeEvents r t before reply calls after).flatMap (Event.lost s) =
      (r.log calls).flatMap fun d => (Event.called d).lost s := by
  have hreplied : (repliedEvents t before reply).flatMap (Event.lost s) = [] := by
    rcases repliedEvents_cases t before reply with ⟨h, _⟩ | ⟨_, _, _, _, h⟩ <;> rw [h] <;> rfl
  have hissued : (issuedEvents t after).flatMap (Event.lost s) = [] := by
    rcases issuedEvents_cases t after with ⟨h, _⟩ | ⟨_, _, h⟩ <;> rw [h] <;> rfl
  rw [takeEvents, List.flatMap_append, List.flatMap_append, hreplied, hissued, List.flatMap_map]
  simp

theorem lost_take (hno : .stop s ∉ calls) : lost s (b.take t before reply calls result).log =
    lost s b.log ++ (b.coordinator.registry.log calls).flatMap fun d => (Event.called d).lost s := by
  have hall : ∀ event ∈ takeEvents b.coordinator.registry t before reply calls result.task.ongoing?,
      (!event.stops s) = true := by
    intro event he
    rcases mem_takeEvents he with ⟨_, _, rfl⟩ | ⟨⟨r, call⟩, hd, rfl⟩ | ⟨_, _, rfl⟩
    · rfl
    · have hcall := Registry.call_of_mem_log hd
      cases call with
      | stop s' =>
        have hne : s' ≠ s := fun hs => hno (hs ▸ hcall)
        simp [Event.stops, hne]
      | _ => rfl
    · rfl
  rw [lost, log_take, rtakeWhile_append_of_all hall, List.flatMap_append, lost_takeEvents]
  rfl

theorem lost_take_of_stop :
    lost s (b.take t before reply [.stop s] result).log = [] := by
  have hstop : Event.called ⟨b.coordinator.registry, .stop s⟩ ∈
      takeEvents b.coordinator.registry t before reply [.stop s] result.task.ongoing? :=
    List.mem_append_left _ (List.mem_append_right _ (List.mem_singleton_self _))
  have hnothing := lost_takeEvents (s := s) b.coordinator.registry t before reply [.stop s]
    result.task.ongoing?
  rw [lost, log_take, rtakeWhile_append_of_mem hstop (by simp [Event.stops])]
  refine List.flatMap_eq_nil_iff.mpr fun event he => ?_
  exact List.flatMap_eq_nil_iff.mp hnothing event ((List.rtakeWhile_suffix _ _).subset he)

end Lost

namespace Episode.Occurs
variable {x : Episode} (hx : x.Occurs) (h : x.before.Consistent) {s : SessionId}
include hx

theorem message?_of_was {task : Task} (hwas : x.was = some task) : x.action.message? s = none := by
  cases hx with
  | request => cases hwas
  | turn | reply => rfl

include h

theorem message?_of_submits {c : Candidate} (hc : .submit s c ∈ x.calls) :
    x.action.message? s = some (.candidate c) := by
  cases hwas : x.was with
  | some task =>
    have hpasses := (hx.taken h).follows.move.passes h.wellFormed (h.hasEntry_before (hx.taken h).task) s
    rw [hwas] at hpasses
    generalize x.calls = calls at hpasses hc
    generalize x.action.reply? = reply at hpasses
    generalize x.result.task.ongoing? = after at hpasses
    cases hpasses with
    | clears _ hno | leaves _ hno => exact absurd hc (hno c)
    | pops | drains => cases List.mem_singleton.mp hc
  | none =>
    cases hx with
    | turn | reply => cases hwas
    | @request b q =>
      change .submit s c ∈ requestCalls b.coordinator q at hc
      cases q with
      | prepare =>
        simp only [requestCalls] at hc
        split at hc
        · cases List.mem_singleton.mp hc
        · cases hc
      | submit s' c' =>
        cases List.mem_singleton.mp hc
        exact if_pos rfl
      | shutdown order =>
        obtain ⟨_, _, heq⟩ := List.mem_map.mp hc
        cases heq
      | stop => cases List.mem_singleton.mp hc
      | requestMix | withdrawMix => cases hc

theorem submitted_calls : x.calls.filterMap (Registry.Call.submitted? s) =
    ((x.action.message? s).bind ClientMessage.candidate?).toList := by
  cases hm : (x.action.message? s).bind ClientMessage.candidate? with
  | none =>
    refine submitted?_eq_nil s fun c hc => ?_
    simp [hx.message?_of_submits h hc, ClientMessage.candidate?] at hm
  | some c =>
    obtain ⟨m, hmessage, hcandidate⟩ := Option.bind_eq_some_iff.mp hm
    rcases message?_cases hmessage with ⟨_, _, rfl, _⟩ | ⟨rfl, _⟩ | ⟨c', rfl, ha⟩
    · cases hcandidate
    · cases hcandidate
    · cases hcandidate
      rw [(hx.calls_of_request ha).2]
      simp [requestCalls, Registry.Call.submitted?]

variable (hu : x.before.Undisturbed) (hquiet : x.action.disturbs = false)
include hu hquiet

/-- When the queue of a session is removed with its entry, nothing was given to an endpoint yet. -/
theorem sent_of_clears (rel : Relayed s x.before) (hno : x.action.message? s ≠ some .stop)
    {d : Registry.Deed} (hd : d ∈ x.before.coordinator.registry.log x.calls)
    (hclears : d.call.clears d.before s) :
    x.action.message? s = none ∧ submitted s x.after.log = [] ∧
      lost s x.after.log = lost s x.before.log ++ submitted s x.before.log := by
  have hrole := hx.stopped_of_clears h hu hquiet hd hclears hno
  have hnostop : .stop s ∉ x.calls := fun hstop => hno (hx.message?_of_stops h hu hquiet hstop)
  -- whoever was given a candidate is running, but the entry that goes is stopped
  have happlied : applied s x.before.log = [] := by
    refine List.eq_nil_iff_forall_not_mem.mpr fun y hy => ?_
    obtain ⟨e, he, hrunning, _⟩ := rel.receives hy
    exact hrunning (Registry.activeRole?_eq_none_iff.mp hrole e he)
  have hbalance := rel.balance
  rw [happlied, List.map_nil, List.nil_append] at hbalance
  rcases (hx.taken h).follows.move.clears_cases hd hclears with hstop | ⟨n, stage, hwas, hlive, rfl,
    hask, hcalls, hdeed, hcurrent⟩
  · exact absurd hstop hnostop
  have hmessage := hx.message?_of_was (s := n.session) hwas
  refine ⟨hmessage, submitted_take_of_clears ⟨d, hd, hclears⟩ fun c hc => ?_, ?_⟩
  · cases hmessage.symm.trans (hx.message?_of_submits h hc)
  -- what the negotiation asks for before it removes its entry leaves the queue as it is
  have hsteady : Registry.Steady n.session x.before.coordinator.registry
      (x.before.coordinator.registry.after (stage.asks n x.action.reply?).toList) :=
    (h.hasEntry_before (hx.taken h).task n stage hwas hlive).asks_steady h.wellFormed hask
  have hwaiting : d.before.buffer.waiting n.session =
      x.before.coordinator.registry.buffer.waiting n.session := by
    rw [hdeed]
    exact congrArg (Option.getD · []) hsteady.queue
  have hasks : ∀ d' ∈ x.before.coordinator.registry.log (stage.asks n x.action.reply?).toList,
      (Event.called d').lost n.session = [] := by
    rintro ⟨r, call⟩ hd'
    have hnot := NegotiationStage.not_takes_of_asks (Option.mem_toList.mp (Registry.call_of_mem_log hd'))
    cases call with
    | remove => exact absurd rfl hnot
    | _ => rfl
  have hremoved : (Event.called d).lost n.session = d.before.buffer.waiting n.session := by
    rw [hdeed] at hcurrent ⊢
    exact if_pos ⟨rfl, hcurrent⟩
  rw [after, lost_take hnostop, hcalls, Registry.log_append, List.flatMap_append,
    List.flatMap_eq_nil_iff.mpr hasks, List.flatMap_singleton, List.nil_append, ← hdeed, hremoved,
    hwaiting, hbalance]

/-- What a session has sent since its last stop was lost, or it was submitted since the last removal. -/
theorem sent_step (rel : Relayed s x.before) {sofar : List ClientMessage}
    (hsent : sent sofar = lost s x.before.log ++ submitted s x.before.log) :
    sent (sofar ++ (x.action.message? s).toList) = lost s x.after.log ++ submitted s x.after.log := by
  by_cases hstop : x.action.message? s = some .stop
  · obtain ⟨leaving, ha⟩ : ∃ leaving, x.action = .request (.stop s leaving) := by
      rcases message?_cases hstop with ⟨_, _, hm, _⟩ | ⟨_, ha⟩ | ⟨_, hm, _⟩
      · cases hm
      · exact ha
      · cases hm
    have hcalls : x.calls = [.stop s] := (hx.calls_of_request ha).2
    have hd : (⟨x.before.coordinator.registry, .stop s⟩ : Registry.Deed) ∈
        x.before.coordinator.registry.log x.calls := by
      rw [hcalls]
      exact List.mem_singleton_self _
    have hnone : submitted s x.after.log = [] :=
      submitted_take_of_clears ⟨_, hd, by simp [Registry.Call.clears]⟩ (by simp [hcalls])
    rw [hstop, Option.toList_some, sent_append, hnone, after, hcalls, lost_take_of_stop]
    rfl
  by_cases hclears : ∃ d ∈ x.before.coordinator.registry.log x.calls, d.call.clears d.before s
  · obtain ⟨d, hd, hc⟩ := hclears
    obtain ⟨hmessage, hnone, hlost⟩ := hx.sent_of_clears h hu hquiet rel hstop hd hc
    rw [hmessage, hnone, hlost, Option.toList_none, List.append_nil, List.append_nil, hsent]
  · have hstays : ∀ d ∈ x.before.coordinator.registry.log x.calls, d.call.clears d.before s = false :=
      fun d hd => Bool.eq_false_iff.mpr fun hc => hclears ⟨d, hd, hc⟩
    have hlost : lost s x.after.log = lost s x.before.log := by
      rw [after, lost_take fun hs => hstop (hx.message?_of_stops h hu hquiet hs),
        List.flatMap_eq_nil_iff.mpr fun d hd => Event.lost_of_not_clears (hstays d hd),
        List.append_nil]
    have hsubmitted : submitted s x.after.log = submitted s x.before.log ++
        ((x.action.message? s).bind ClientMessage.candidate?).toList := by
      rw [after, submitted_take hstays, hx.submitted_calls h]
    rw [hlost, hsubmitted, ← List.append_assoc, ← hsent]
    cases hm : x.action.message? s with
    | none => simp
    | some m =>
      rw [Option.toList_some, sent_append, if_neg]
      · rfl
      · intro his
        cases m with
        | stop => exact hstop hm
        | _ => cases his

end Episode.Occurs

/-! ## What was submitted was given to the endpoint -/

theorem Task.gives?_eq_some_iff {task : Task} {endpoint : Endpoint} {c : Candidate} :
    task.gives? endpoint = some c ↔ ∃ s, task.candidate? s = some (endpoint, c) := by
  constructor
  · intro hgives
    unfold Task.gives? at hgives
    split at hgives
    · rename_i endpoint' c' hcall
      split at hgives <;> cases hgives
      rename_i hendpoint
      subst hendpoint
      rcases applying_of_call hcall with ⟨n, rfl⟩ | ⟨s, rfl⟩
      · exact ⟨n.session, (candidate?_applying _ _ _ _).trans (if_pos rfl)⟩
      · exact ⟨s, (candidate?_apply _ _ _ _).trans (if_pos rfl)⟩
    · cases hgives
  · rintro ⟨s, hcandidate⟩
    rcases candidate?_cases hcandidate with ⟨n, rfl, _⟩ | rfl <;> exact if_pos rfl

/-- The calls on the endpoint of a session that was not stopped are those that were made for the session. -/
def Feeds (s : SessionId) (b : Broadcast) : Prop :=
  ∀ e endpoint, b.coordinator.registry.entry? s = some e → ¬ e.stopped →
    e.endpoint = some endpoint → given endpoint b.log = (applied s b.log).map Prod.snd

theorem Episode.given_after (x : Episode) (endpoint : Endpoint) : given endpoint x.after.log =
    given endpoint x.before.log ++ (x.left.bind (Task.gives? endpoint)).toList := by
  refine issued_take _ _ _ _ _ _ (fun _ => rfl) (fun _ _ _ => rfl) (fun _ _ => rfl) fun task hnone => ?_
  simp [Task.gives?, hnone]

theorem Episode.Occurs.entry_of_candidate {x : Episode} (hx : x.Occurs) (h : x.before.Consistent)
    {task : Task} {s : SessionId} {endpoint : Endpoint} {c : Candidate}
    (hleft : x.left = some task) (hcandidate : task.candidate? s = some (endpoint, c)) :
    ∃ a e, x.after.coordinator.registry.attempt? s a = some e ∧ e.endpoint = some endpoint := by
  have hafter : x.after.Consistent := h.take (hx.taken h).task (hx.taken h).follows
  rcases candidate?_cases hcandidate with ⟨n, rfl, rfl⟩ | rfl
  · have hleads : x.after.Leads x.task n (.applying endpoint c) :=
      ⟨(x.get?_after x.task).trans ((if_pos rfl).trans hleft), rfl⟩
    obtain ⟨e, he, _, hep, _⟩ := hafter.hasEntry _ _ _ hleads
    exact ⟨n.attempt, e, he, hep⟩
  · have hmove := (hx.taken h).follows.move
    rw [← left, hleft] at hmove
    obtain ⟨e, he, hep⟩ := hmove.apply_entry
    rw [← hx.registry_after h] at he
    exact ⟨e.attempt, e, hafter.wellFormed.attempt?_of_current he, hep⟩

theorem made_of_given (actions : List Action) {endpoint : Endpoint} {c : Candidate}
    (hc : c ∈ given endpoint (run {} actions).log) :
    ∃ a, (a, .endpoint, endpoint.id) ∈ madeFor (run {} actions).log := by
  refine (history_induction (P := fun _ b => b.Accounts ∧ ∀ c ∈ given endpoint b.log,
    ∃ a, (a, .endpoint, endpoint.id) ∈ madeFor b.log) ⟨accounts_empty, fun _ h => by cases h⟩ ?_
    actions).2 c hc
  rintro _ x ⟨ac, hknown⟩ h hx
  have ht := hx.taken h
  have ac' : x.after.Accounts := ac.take h ht.task ht.follows ht.fresh
  refine ⟨ac', fun c hc => ?_⟩
  rw [x.given_after, List.mem_append] at hc
  rcases hc with hold | hnew
  · obtain ⟨a, hm⟩ := hknown c hold
    exact ⟨a, madeFor_subset_take hm⟩
  · obtain ⟨task, hleft, hgives⟩ := Option.bind_eq_some_iff.mp (Option.mem_toList.mp hnew)
    obtain ⟨s, hcandidate⟩ := Task.gives?_eq_some_iff.mp hgives
    obtain ⟨a, e, he, hep⟩ := hx.entry_of_candidate h hleft hcandidate
    have hm := ((h.take ht.task ht.follows).wellFormed.mem_of_attempt? he).1
    exact ⟨e.attempt, (ac'.carried e hm .endpoint endpoint.id rfl).mp hep⟩

section Feeds
variable {s : SessionId} {x : Episode} (hx : x.Occurs) (h : x.before.Consistent)
include hx h

/-- Who clears the candidates of a session leaves it stopped, or without an entry. -/
theorem Episode.Occurs.stopped_by_clearing {d : Registry.Deed}
    (hd : d ∈ x.before.coordinator.registry.log x.calls) (hclears : d.call.clears d.before s) {e : Entry}
    (he : x.after.coordinator.registry.entry? s = some e) : e.stopped := by
  have w := h.wellFormed
  rw [hx.registry_after h] at he
  rcases (hx.taken h).follows.move.clears_cases hd hclears with hstop | ⟨n, stage, _, _, rfl, _, hcalls,
    rfl, hcurrent⟩
  · obtain ⟨sessions, hcalls⟩ := (hx.taken h).follows.move.stops hstop
    rw [hcalls] at he hstop
    obtain ⟨_, hs, heq⟩ := List.mem_map.mp hstop
    cases heq
    exact w.stopped_of_stops hs he
  · have w' := w.after (stage.asks n x.action.reply?).toList
    rw [hcalls, Registry.after_append] at he
    obtain ⟨e₀, he₀, ha₀⟩ := Registry.isCurrent_iff.mp hcurrent
    obtain ⟨e₁, he₁, hev⟩ := @Registry.WellFormed.current_unless_entered _ w'
      [.remove n.session n.attempt] n.session (fun role hm => by cases List.mem_singleton.mp hm) e he
    cases he₀.symm.trans he₁
    have hattempt := w'.attempt?_of_current he₀
    rw [ha₀] at hattempt
    exact absurd (hev.attempt.trans ha₀)
      (w'.not_mem_after_remove hattempt (Registry.mem_entries_of_current he))

variable (ac : x.before.Accounts) (ac' : x.after.Accounts) (rel : Relayed s x.before)
  (rel' : Relayed s x.after)
include ac'

theorem Episode.Occurs.gives_eq {e : Entry} {endpoint : Endpoint}
    (he : x.after.coordinator.registry.entry? s = some e) (hs : ¬ e.stopped)
    (hep : e.endpoint = some endpoint)
    (hown : ∀ task y, x.left = some task → task.candidate? s = some y → y.1 = endpoint) :
    x.left.bind (Task.gives? endpoint) = (x.left.bind (Task.candidate? s)).map Prod.snd := by
  have w' := (h.take (hx.taken h).task (hx.taken h).follows).wellFormed
  cases hleft : x.left with
  | none => rfl
  | some task =>
    change task.gives? endpoint = (task.candidate? s).map Prod.snd
    cases hgives : task.gives? endpoint with
    | some c =>
      obtain ⟨s', hcandidate⟩ := Task.gives?_eq_some_iff.mp hgives
      obtain ⟨a, e', he', hep'⟩ := hx.entry_of_candidate h hleft hcandidate
      -- the endpoint was made for one attempt, so both entries are the same
      have hm := Registry.mem_entries_of_current he
      have hm' := (w'.mem_of_attempt? he').1
      obtain ⟨ha, _⟩ := ac'.madeFor_eq ((ac'.carried e hm .endpoint endpoint.id rfl).mp hep)
        ((ac'.carried e' hm' .endpoint endpoint.id rfl).mp hep')
      obtain rfl := w'.eq_of_attempt_eq hm hm' ha
      obtain rfl := w'.session_eq (w'.isCurrent_of_attempt? he' hs) he rfl
      rw [hcandidate]
      rfl
    | none =>
      cases hcandidate : task.candidate? s with
      | none => rfl
      | some y =>
        obtain rfl := hown task y hleft hcandidate
        cases hgives.symm.trans (Task.gives?_eq_some_iff.mpr ⟨s, hcandidate⟩)

include ac rel

theorem Episode.Occurs.given_before (hfeeds : x.before.Feeds s)
    (hknown : ∀ endpoint, ∀ c ∈ given endpoint x.before.log,
      ∃ a, (a, .endpoint, endpoint.id) ∈ madeFor x.before.log)
    (hstays : ∀ d ∈ x.before.coordinator.registry.log x.calls, d.call.clears d.before s = false)
    {e : Entry} {endpoint : Endpoint} (he : x.after.coordinator.registry.entry? s = some e)
    (hs : ¬ e.stopped) (hep : e.endpoint = some endpoint) :
    given endpoint x.before.log = (applied s x.before.log).map Prod.snd := by
  have w := h.wellFormed
  have ht := hx.taken h
  have hmade := (ac'.carried e (Registry.mem_entries_of_current he) .endpoint endpoint.id rfl).mp hep
  rw [hx.registry_after h] at he
  -- the endpoint was the session's before, or it was made in this step and nobody can have named it
  by_cases hold : (e.attempt, .endpoint, endpoint.id) ∈ madeFor x.before.log
  · obtain ⟨e₀, he₀, hev⟩ := (w.after_changes x.calls).current_origin w he (ac.attempt_le _ _ hold)
    rw [hev.attempt] at hold
    refine hfeeds e₀ endpoint he₀ (fun hst => hs (hev.stopped hst)) ?_
    exact (ac.carried e₀ (Registry.mem_entries_of_current he₀) .endpoint endpoint.id rfl).mpr hold
  · have hgiven : given endpoint x.before.log = [] := by
      refine List.eq_nil_iff_forall_not_mem.mpr fun c hc => ?_
      obtain ⟨a, hm⟩ := hknown endpoint c hc
      rw [Episode.after, madeFor_take] at hmade
      have hnew := (List.mem_append.mp hmade).resolve_left hold
      exact ht.fresh _ (mem_brought_of_madeForBy hnew)
        (List.mem_map_of_mem ((madeFor_sublist _).subset (List.mem_map_of_mem hm)))
    have happlied : applied s x.before.log = [] := by
      refine List.eq_nil_iff_forall_not_mem.mpr fun y hy => ?_
      obtain ⟨e₀, he₀, hrunning, hep₀⟩ := rel.receives hy
      have hpasses := ht.follows.move.passes w (h.hasEntry_before ht.task) s
      obtain ⟨e₁, he₁, hc⟩ := hpasses.continues w hstays he₀ hrunning
      cases he.symm.trans he₁
      obtain rfl := Option.some.inj (hep.symm.trans (hc.endpoint _ hep₀))
      refine hold (hc.attempt ▸ ?_)
      exact (ac.carried e₀ (Registry.mem_entries_of_current he₀) .endpoint y.1.id rfl).mp hep₀
    rw [hgiven, happlied]
    rfl

include rel'

theorem Feeds.step (hfeeds : x.before.Feeds s)
    (hknown : ∀ endpoint, ∀ c ∈ given endpoint x.before.log,
      ∃ a, (a, .endpoint, endpoint.id) ∈ madeFor x.before.log) : x.after.Feeds s := by
  intro e endpoint he hs hep
  have hstays : ∀ d ∈ x.before.coordinator.registry.log x.calls, d.call.clears d.before s = false :=
    fun d hd => Bool.eq_false_iff.mpr fun hc => hs (hx.stopped_by_clearing h hd hc he)
  have happlied : applied s x.after.log =
      applied s x.before.log ++ (x.left.bind (Task.candidate? s)).toList := applied_take hstays
  have hown : ∀ task y, x.left = some task → task.candidate? s = some y → y.1 = endpoint := by
    intro task y hleft hy
    have hm : y ∈ applied s x.after.log := by
      rw [happlied, hleft]
      exact List.mem_append_right _ (Option.mem_toList.mpr hy)
    obtain ⟨e', he', _, hep'⟩ := rel'.receives hm
    cases he.symm.trans he'
    exact Option.some.inj (hep'.symm.trans hep)
  rw [x.given_after, hx.given_before h ac ac' rel hfeeds hknown hstays he hs hep,
    hx.gives_eq h ac' he hs hep hown, happlied, List.map_append]
  cases x.left.bind (Task.candidate? s) <;> rfl

end Feeds

section Runs
variable {s : SessionId} {actions : List Action} (hserial : Serial s {} actions)
include hserial

theorem feeds : (run {} actions).Feeds s := by
  refine messages_induction (s := s) [] (P := fun _ b => b.Feeds s) (fun _ _ he => by cases he) ?_
  rintro _ x hfeeds hx ⟨earlier, later, rfl, hbefore, hafter⟩
  rw [List.nil_append] at hbefore hafter
  have h : x.before.Consistent := hbefore ▸ consistent earlier
  -- the step leads from one serial run to another, so the order of the candidates is known at both ends
  have hsplit : earlier ++ x.action :: later = earlier ++ [x.action] ++ later := by simp
  have hnow : Serial s {} (earlier ++ [x.action]) := (hsplit ▸ hserial).earlier
  refine hfeeds.step hx h (hbefore ▸ accounts earlier) (hafter ▸ accounts _)
    (hbefore ▸ hserial.earlier.relayed) (hafter ▸ hnow.relayed) fun endpoint c hc => ?_
  rw [hbefore] at hc ⊢
  exact made_of_given earlier hc

theorem sent_eq (hquiet : ∀ a ∈ actions, a.disturbs = false) :
    sent (messages s actions) = lost s (run {} actions).log ++ submitted s (run {} actions).log := by
  refine messages_induction [] (P := fun sofar b => sent sofar = lost s b.log ++ submitted s b.log)
    rfl ?_
  rintro sofar x hsent hx ⟨earlier, later, rfl, hbefore, _⟩
  rw [List.nil_append] at hbefore
  have hpast : ∀ a ∈ earlier, a.disturbs = false := fun a ha => hquiet a (List.mem_append_left _ ha)
  exact hx.sent_step (hbefore ▸ consistent earlier) (hbefore ▸ undisturbed hpast)
    (hquiet _ (by simp)) (hbefore ▸ hserial.earlier.relayed) hsent

/--
While nothing goes wrong and the messages of a session are served one after the other, a session that
takes part has had given to its endpoint what it has sent since its last stop, less what was lost, in
order and each candidate once. Every such call was answered well or is still under way.
-/
theorem candidates_since_stop (hquiet : ∀ a ∈ actions, a.disturbs = false) {e : Entry}
    (he : Registry.entry? (run {} actions).coordinator.registry s = some e) (hready : e.phase = .ready) :
    ∃ endpoint, e.endpoint = some endpoint ∧
      sent (messages s actions) =
        lost s (run {} actions).log ++ given endpoint (run {} actions).log ∧
      ∀ t task c, .issued t task ∈ (run {} actions).log → task.gives? endpoint = some c →
        (∃ text, .replied t task (.ok text) ∈ (run {} actions).log) ∨
          (run {} actions).tasks.get? t = some task := by
  have h := consistent actions
  have hm := Registry.mem_entries_of_current he
  obtain ⟨hstraight, hendpoint, _⟩ := ready_has_media actions hm hready
  obtain ⟨endpoint, hep⟩ := Option.isSome_iff_exists.mp hendpoint
  have hs := (h.wellFormed.ready_not_stopped hm hready).1
  have rel := hserial.relayed
  have hbalance := rel.balance
  rw [rel.waiting_eq_nil he hstraight hs, List.append_nil] at hbalance
  refine ⟨endpoint, hep, ?_, fun t task c hissued _ => ?_⟩
  · rw [sent_eq hserial hquiet, feeds hserial e endpoint he hs hep, ← hbalance]
  · refine (answered_or_waiting actions t task hissued).2.imp_left ?_
    rintro ⟨reply, hreplied⟩
    obtain ⟨text, rfl⟩ := (undisturbed hquiet).accepted t task reply hreplied
    exact ⟨text, hreplied⟩

end Runs

/-- A presenter stops while its port is made, and sends a candidate for its next negotiation. -/
def stopsAtPort : List Action :=
  [.request (.prepare ⟨1⟩ .presenter "offer"), .turn ⟨0⟩, .reply ⟨0⟩ (.ok "pipeline"),
    .reply ⟨0⟩ (.ok "mixer"), .reply ⟨0⟩ (.ok "endpoint"), .request (.stop ⟨1⟩ false),
    .request (.submit ⟨1⟩ { line := "early" })]

/-- The stopped negotiation comes to its end. -/
def givesUpAtPort : List Action :=
  [.reply ⟨0⟩ (.ok "port"), .reply ⟨0⟩ (.ok ""), .reply ⟨0⟩ (.ok "")]

def beginsAnew : List Action :=
  [.request (.prepare ⟨1⟩ .presenter "anew"), .request (.submit ⟨1⟩ { line := "late" })]

def completesAnew (candidates : Nat) : List Action :=
  [.turn ⟨3⟩, .reply ⟨3⟩ (.ok "new endpoint"), .reply ⟨3⟩ (.ok "new port"), .reply ⟨3⟩ (.ok "")] ++
    List.replicate candidates (.reply ⟨3⟩ (.ok "")) ++
    [.reply ⟨3⟩ (.ok ""), .reply ⟨3⟩ (.ok "answer"), .reply ⟨3⟩ (.ok "")]

/-- The entry of the session then. -/
def entryAnew : Entry :=
  { attempt := ⟨2⟩, role := .presenter, phase := .ready, endpoint := some ⟨⟨"new endpoint"⟩⟩,
    port := some ⟨⟨"new port"⟩⟩, endpointReady := true }

/-- A negotiation that is superseded before it gives up leaves the candidates alone. -/
theorem superseded_keeps_candidates :
    let actions := stopsAtPort ++ beginsAnew ++ givesUpAtPort ++ completesAnew 2
    Registry.entry? (run {} actions).coordinator.registry ⟨1⟩ = some entryAnew ∧
      given ⟨⟨"new endpoint"⟩⟩ (run {} actions).log = [{ line := "early" }, { line := "late" }] := by
  intro actions
  have hentry : Registry.entry? (run {} actions).coordinator.registry ⟨1⟩ = some entryAnew := by decide +kernel
  have hlost : lost ⟨1⟩ (run {} actions).log = [] := by decide +kernel
  obtain ⟨endpoint, hep, hsent, _⟩ := @candidates_since_stop ⟨1⟩ actions (by decide +kernel)
    (by decide +kernel) entryAnew hentry rfl
  cases hep
  rw [hlost, List.nil_append] at hsent
  exact ⟨hentry, hsent.symm⟩

/-- If it gives up first, the candidate that was sent after the stop never comes to the endpoint. -/
theorem candidate_lost_after_stop :
    ¬ ∀ (s : SessionId) (actions : List Action), Serial s {} actions →
      (∀ a ∈ actions, a.disturbs = false) → (∀ t, (run {} actions).tasks.get? t = none) →
      ∀ e endpoint, Registry.entry? (run {} actions).coordinator.registry s = some e → e.phase = .ready →
        e.endpoint = some endpoint →
        given endpoint (run {} actions).log = sent (messages s actions) := by
  intro hclaim
  have hgiven := hclaim ⟨1⟩ (stopsAtPort ++ givesUpAtPort ++ beginsAnew ++ completesAnew 1)
    (by decide +kernel) (by decide +kernel) (Table.get?_of_isEmpty (by decide +kernel)) entryAnew
    ⟨⟨"new endpoint"⟩⟩ (by decide +kernel) rfl rfl
  refine absurd (congrArg List.length hgiven) ?_
  decide +kernel

end Broadcast

end Rostrum
