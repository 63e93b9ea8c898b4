import Rostrum.Proofs.Broadcast.Journal
import Rostrum.Proofs.Broadcast.Path

/-!
# Candidates are neither lost nor doubled nor reordered

Between two events that clear the candidates of a session, those that were given to an endpoint,
followed by those that wait, are those that were submitted. This rests on what is known of the current
entry: it stays the same after the first candidate was given to its endpoint, and nothing waits any
more once the entry lets candidates go straight to the endpoint.
-/

namespace Rostrum

/-- Whether an entry is the one for which a task gives a candidate to an endpoint. -/
structure Entry.Receives (e : Entry) (task : Task) (endpoint : Endpoint) : Prop where
  running : ¬ e.stopped
  endpoint : e.endpoint = some endpoint
  attempt : ∀ n stage, task = .negotiation n stage → e.attempt = n.attempt
  ready : ∀ s endpoint c, task = .apply s endpoint c → e.endpointReady

theorem Entry.Receives.continues {e e' : Entry} {task : Task} {endpoint : Endpoint}
    (h : e.Receives task endpoint) (hc : e.Continues e') : e'.Receives task endpoint where
  running := hc.running
  endpoint := hc.endpoint endpoint h.endpoint
  attempt n stage heq := hc.attempt.trans (h.attempt n stage heq)
  ready s endpoint c heq := hc.ready (h.ready s endpoint c heq)

namespace Broadcast

section Lists
variable {α : Type} {p : α → Bool} {l more : List α}

theorem rtakeWhile_append_of_all (h : ∀ x ∈ more, p x) :
    (l ++ more).rtakeWhile p = l.rtakeWhile p ++ more := by
  have hall : ∀ x ∈ more.reverse, p x := fun x hx => h x (List.mem_reverse.mp hx)
  simp only [List.rtakeWhile, List.reverse_append, List.takeWhile_append_of_pos hall,
    List.reverse_reverse]

theorem rtakeWhile_append_of_mem {x : α} (hx : x ∈ more) (h : ¬ p x) :
    (l ++ more).rtakeWhile p = more.rtakeWhile p := by
  have hne : (more.reverse.takeWhile p).length ≠ more.reverse.length := by
    intro hlength
    have heq := (List.takeWhile_sublist _).eq_of_length hlength
    exact h (List.takeWhile_eq_self_iff.mp heq x (List.mem_reverse.mpr hx))
  simp only [List.rtakeWhile, List.reverse_append, List.takeWhile_append, if_neg hne]

end Lists

section Since
variable {s : SessionId} {log events : List Event}

theorem since_append_of_quiet (h : ∀ event ∈ events, event.clears s = false) :
    since s (log ++ events) = since s log ++ events :=
  rtakeWhile_append_of_all fun event he => by simp [h event he]

theorem since_append_of_clears (h : ∃ event ∈ events, event.clears s) :
    since s (log ++ events) = since s events := by
  obtain ⟨event, he, hclears⟩ := h
  exact rtakeWhile_append_of_mem he (by simp [hclears])

theorem mem_of_mem_since {event : Event} (h : event ∈ since s log) : event ∈ log :=
  List.mem_reverse.mp ((List.takeWhile_sublist _).subset (List.mem_reverse.mp h))

end Since

/-- Every candidate that was given to an endpoint for a session was taken. -/
def Answered (s : SessionId) (log : List Event) : Prop :=
  ∀ earlier t task later, log = earlier ++ .issued t task :: later → (task.candidate? s).isSome →
    ∃ reply, .replied t task reply ∈ later

/-- What is known of the candidates of a session between two steps. -/
structure Relayed (s : SessionId) (b : Broadcast) : Prop where
  balance : (applied s b.log).map Prod.snd ++ b.coordinator.registry.buffer.waiting s =
    submitted s b.log
  current : ∀ t task x, .issued t task ∈ since s b.log → task.candidate? s = some x →
    ∃ e, b.coordinator.registry.entry? s = some e ∧ e.Receives task x.1
  queue : ∀ e, b.coordinator.registry.entry? s = some e → e.endpointReady → ¬ e.stopped →
    b.coordinator.registry.buffer.hasQueue s = false
  /-- What was not answered yet still waits for its answer. -/
  answered : ∀ earlier t task later, since s b.log = earlier ++ .issued t task :: later →
    (task.candidate? s).isSome →
    (∃ reply, .replied t task reply ∈ later) ∨ b.tasks.get? t = some task
  sequential : ∀ earlier event later, since s b.log = earlier ++ event :: later →
    (event.applied? s).isSome → Answered s earlier

theorem relayed_empty (s : SessionId) : Relayed s {} where
  balance := rfl
  current _ _ _ h := by cases h
  queue _ h := by cases h
  answered earlier t task later h := by
    have hnil : [] = earlier ++ .issued t task :: later := h
    simp at hnil
  sequential earlier event later h := by
    have hnil : [] = earlier ++ event :: later := h
    simp at hnil

section Events
variable (s : SessionId) (r : Registry) (t : TaskId) (before : Option Task) (reply : Option Reply)
  (calls : List Registry.Call) (after : Option Task)

theorem applied?_takeEvents :
    (takeEvents r t before reply calls after).filterMap (Event.applied? s) =
      (after.bind (Task.candidate? s)).toList := by
  have hreplied : (repliedEvents t before reply).filterMap (Event.applied? s) = [] := by
    rcases repliedEvents_cases t before reply with ⟨h, _⟩ | ⟨_, _, _, _, h⟩ <;> rw [h] <;> rfl
  have hissued : (issuedEvents t after).filterMap (Event.applied? s) =
      (after.bind (Task.candidate? s)).toList := by
    rcases issuedEvents_cases t after with ⟨h, hnone⟩ | ⟨task, rfl, h⟩
    · rw [h]
      cases after with
      | none => rfl
      | some task => simp [Task.candidate?, hnone task rfl]
    · rw [h]
      cases hc : task.candidate? s <;> simp [Event.applied?, hc]
  rw [takeEvents, List.filterMap_append, List.filterMap_append, hreplied, hissued, List.filterMap_map]
  simp [Function.comp_def, Event.applied?]

theorem submitted?_takeEvents :
    (takeEvents r t before reply calls after).filterMap (Event.submitted? s) =
      calls.filterMap (Registry.Call.submitted? s) := by
  have hreplied : (repliedEvents t before reply).filterMap (Event.submitted? s) = [] := by
    rcases repliedEvents_cases t before reply with ⟨h, _⟩ | ⟨_, _, _, _, h⟩ <;> rw [h] <;> rfl
  have hissued : (issuedEvents t after).filterMap (Event.submitted? s) = [] := by
    rcases issuedEvents_cases t after with ⟨h, _⟩ | ⟨_, _, h⟩ <;> rw [h] <;> rfl
  have hcalled : ((r.log calls).map Event.called).filterMap (Event.submitted? s) =
      calls.filterMap (Registry.Call.submitted? s) := by
    conv_rhs => rw [← r.log_calls calls]
    rw [List.filterMap_map, List.filterMap_map]
    rfl
  rw [takeEvents, List.filterMap_append, List.filterMap_append, hreplied, hissued, hcalled]
  simp

theorem submitted?_eq_nil {calls : List Registry.Call} (h : ∀ c, Registry.Call.submit s c ∉ calls) :
    calls.filterMap (Registry.Call.submitted? s) = [] := by
  refine List.filterMap_eq_nil_iff.mpr fun call hcall => ?_
  cases call with
  | submit s' c =>
    have hs : s' ≠ s := fun hs => h c (hs ▸ hcall)
    exact if_neg hs
  | _ => rfl

end Events

theorem Consistent.endpoint_of_ready {b : Broadcast} (h : b.Consistent) {e : Entry}
    (he : e ∈ b.coordinator.registry.entries) (hready : e.endpointReady) : e.endpoint.isSome := by
  cases hphase : e.phase with
  | ready => exact h.ready_endpoint e he hphase
  | pending =>
    obtain ⟨t, n, stage, hleads, ha⟩ := h.pending_led e he hphase
    obtain ⟨x, hx, _, hfits⟩ := h.hasEntry t n stage hleads
    obtain rfl := h.wellFormed.eq_of_attempt? hx he ha.symm
    cases stage with
    | subscribing | offering | gathering => simp [hfits.1]
    | releasing => cases hleads.2
    | _ => simp [NegotiationStage.Fits, hready] at hfits

section Take
variable {s : SessionId} {b : Broadcast} {a : Action} {t : TaskId} {before : Option Task}
  {reply : Option Reply} {calls : List Registry.Call} {result : StepResult} (h : b.Consistent)
  (rel : Relayed s b) (ht : Taken b a t before reply calls result)

include ht in
/-- A task that gives a candidate to an endpoint goes on after a reply only. -/
theorem Taken.replied_of_candidate {task : Task} (hwaits : b.tasks.get? t = some task)
    (hc : (task.candidate? s).isSome) :
    ∃ reply', .replied t task reply' ∈
      takeEvents b.coordinator.registry t before reply calls result.task.ongoing? := by
  obtain rfl := ht.task.symm.trans hwaits
  have hcall : task.call?.isSome := by
    cases hcall : task.call? with
    | none => simp [Task.candidate?, hcall] at hc
    | some call => rfl
  obtain ⟨reply', rfl⟩ := Option.isSome_iff_exists.mp (ht.replied task rfl hcall)
  exact ⟨reply', List.mem_append_left _ (List.mem_append_left _ (List.mem_singleton_self _))⟩

theorem since_take_of_clears
    (hclears : ∃ d ∈ b.coordinator.registry.log calls, d.call.clears d.before s) :
    since s (b.take t before reply calls result).log =
      since s (takeEvents b.coordinator.registry t before reply calls result.task.ongoing?) := by
  rw [log_take]
  obtain ⟨d, hd, hc⟩ := hclears
  refine since_append_of_clears ⟨.called d, ?_, hc⟩
  exact List.mem_append_left _ (List.mem_append_right _ (List.mem_map_of_mem hd))

theorem submitted_take_of_clears
    (hclears : ∃ d ∈ b.coordinator.registry.log calls, d.call.clears d.before s)
    (hsubmit : ∀ c, Registry.Call.submit s c ∉ calls) :
    submitted s (b.take t before reply calls result).log = [] := by
  have hnil := submitted?_takeEvents s b.coordinator.registry t before reply calls result.task.ongoing?
  rw [submitted?_eq_nil s hsubmit] at hnil
  rw [submitted, since_take_of_clears hclears]
  refine List.filterMap_eq_nil_iff.mpr fun event he => ?_
  exact List.filterMap_eq_nil_iff.mp hnil event (mem_of_mem_since he)

include ht in
theorem Taken.relayed_of_clears
    (hclears : ∃ d ∈ b.coordinator.registry.log calls, d.call.clears d.before s)
    (hsubmit : ∀ c, Registry.Call.submit s c ∉ calls)
    (hafter : result.task.ongoing?.bind (Task.candidate? s) = none)
    (hqueue : (b.coordinator.registry.after calls).buffer.queues.get? s = none) :
    Relayed s (b.take t before reply calls result) := by
  have happlied : ∀ event ∈ since s (b.take t before reply calls result).log,
      event.applied? s = none := by
    intro event he
    rw [since_take_of_clears hclears] at he
    have hnil := applied?_takeEvents s b.coordinator.registry t before reply calls result.task.ongoing?
    rw [hafter] at hnil
    exact List.filterMap_eq_nil_iff.mp hnil event (mem_of_mem_since he)
  rw [← ht.follows.registry] at hqueue
  constructor
  case balance =>
    rw [applied, List.filterMap_eq_nil_iff.mpr happlied, submitted_take_of_clears hclears hsubmit]
    change [] ++ (Option.getD (result.coordinator.registry.buffer.queues.get? s) []) = []
    rw [hqueue]
    rfl
  case current =>
    intro t' task x he hx
    cases (happlied _ he).symm.trans hx
  case queue =>
    intro e _ _ _
    change (result.coordinator.registry.buffer.queues.get? s).isSome = false
    rw [hqueue]
    rfl
  case answered =>
    intro earlier t' task later hsplit hc
    have hm : Event.issued t' task ∈ since s (b.take t before reply calls result).log :=
      hsplit ▸ List.mem_append_right _ List.mem_cons_self
    rw [show task.candidate? s = none from happlied _ hm] at hc
    cases hc
  case sequential =>
    intro earlier event later hsplit hc
    have hm : event ∈ since s (b.take t before reply calls result).log :=
      hsplit ▸ List.mem_append_right _ List.mem_cons_self
    rw [happlied _ hm] at hc
    cases hc

variable (hquiet : ∀ d ∈ b.coordinator.registry.log calls, d.call.clears d.before s = false)
include hquiet

theorem since_take : since s (b.take t before reply calls result).log =
    since s b.log ++ takeEvents b.coordinator.registry t before reply calls result.task.ongoing? := by
  rw [log_take]
  refine since_append_of_quiet fun event he => ?_
  rcases mem_takeEvents he with ⟨_, _, rfl⟩ | ⟨d, hd, rfl⟩ | ⟨_, _, rfl⟩
  · rfl
  · exact hquiet d hd
  · rfl

theorem applied_take : applied s (b.take t before reply calls result).log =
    applied s b.log ++ (result.task.ongoing?.bind (Task.candidate? s)).toList := by
  rw [applied, since_take hquiet, List.filterMap_append, applied?_takeEvents]
  rfl

theorem submitted_take : submitted s (b.take t before reply calls result).log =
    submitted s b.log ++ calls.filterMap (Registry.Call.submitted? s) := by
  rw [submitted, since_take hquiet, List.filterMap_append, submitted?_takeEvents]
  rfl

include rel ht

theorem Relayed.answered_take (earlier : List Event) (t' : TaskId) (task : Task) (later : List Event)
    (hsplit : since s (b.take t before reply calls result).log = earlier ++ .issued t' task :: later)
    (hc : (task.candidate? s).isSome) :
    (∃ reply, .replied t' task reply ∈ later) ∨
      (b.take t before reply calls result).tasks.get? t' = some task := by
  rw [since_take hquiet] at hsplit
  rw [get?_take]
  rcases split_append hsplit with ⟨more, hold, rfl⟩ | ⟨more, _, hnew⟩
  · rcases rel.answered earlier t' task more hold hc with ⟨reply', hr⟩ | hwaits
    · exact Or.inl ⟨reply', List.mem_append_left _ hr⟩
    · by_cases hne : t = t'
      · subst hne
        obtain ⟨reply', hr⟩ := ht.replied_of_candidate hwaits hc
        exact Or.inl ⟨reply', List.mem_append_right _ hr⟩
      · exact Or.inr (by rw [if_neg hne, hwaits])
  · have hm : Event.issued t' task ∈
        takeEvents b.coordinator.registry t before reply calls result.task.ongoing? :=
      hnew ▸ List.mem_append_right _ List.mem_cons_self
    rcases mem_takeEvents hm with ⟨_, _, heq⟩ | ⟨_, _, heq⟩ | ⟨task', hafter, heq⟩ <;> cases heq
    exact Or.inr (by rw [if_pos rfl, hafter])

/-- A candidate is given to an endpoint only when nobody but the acting task waits for an answer. -/
theorem Relayed.sequential_take
    (hopen : (result.task.ongoing?.bind (Task.candidate? s)).isSome → ∀ t' task,
      .issued t' task ∈ since s b.log → (task.candidate? s).isSome →
      b.tasks.get? t' = some task → t' = t)
    (earlier : List Event) (event : Event) (later : List Event)
    (hsplit : since s (b.take t before reply calls result).log = earlier ++ event :: later)
    (hc : (event.applied? s).isSome) : Answered s earlier := by
  rw [since_take hquiet] at hsplit
  rcases split_append hsplit with ⟨more, hold, rfl⟩ | ⟨more, rfl, hnew⟩
  · exact rel.sequential earlier event more hold hc
  have hpair := @takeEvents_pairwise b.coordinator.registry t before reply calls result.task.ongoing?
  rw [hnew] at hpair
  have hfirst : ∀ x ∈ more, ∀ t' task, x ≠ .issued t' task :=
    fun x hx => (List.pairwise_append.mp hpair).2.2 x hx event List.mem_cons_self
  have hm : event ∈ takeEvents b.coordinator.registry t before reply calls result.task.ongoing? :=
    hnew ▸ List.mem_append_right _ List.mem_cons_self
  obtain ⟨task₀, hafter, rfl⟩ : ∃ task, result.task.ongoing? = some task ∧ event = .issued t task := by
    rcases mem_takeEvents hm with ⟨_, _, rfl⟩ | ⟨_, _, rfl⟩ | hissued
    · cases hc
    · cases hc
    · exact hissued
  have hcandidate : (result.task.ongoing?.bind (Task.candidate? s)).isSome := by
    rw [hafter]
    exact hc
  -- an earlier call is answered in the log so far, or by the reply that this step goes on after
  intro first t' task between heq hc'
  rcases split_append heq with ⟨rest, hold, rfl⟩ | ⟨rest, _, hrest⟩
  · rcases rel.answered first t' task rest hold hc' with ⟨reply', hr⟩ | hwaits
    · exact ⟨reply', List.mem_append_left _ hr⟩
    · have hissued : .issued t' task ∈ since s b.log :=
        hold ▸ List.mem_append_right _ List.mem_cons_self
      obtain rfl := hopen hcandidate t' task hissued hc' hwaits
      obtain ⟨reply', hr⟩ := ht.replied_of_candidate hwaits hc'
      rw [hnew] at hr
      refine ⟨reply', List.mem_append_right _ ?_⟩
      rcases List.mem_append.mp hr with hr | hr
      · exact hr
      · rcases List.mem_cons.mp hr with heq | hr
        · cases heq
        · have hlast := (List.pairwise_cons.mp (List.pairwise_append.mp hpair).2.1).1 _ hr
          exact absurd rfl (hlast t' task₀)
  · exact absurd rfl (hfirst _ (hrest ▸ List.mem_append_right _ List.mem_cons_self) t' task)

omit ht in
theorem Relayed.current_take
    (hcontinues : ∀ e, b.coordinator.registry.entry? s = some e → ¬ e.stopped →
      ∃ e', result.coordinator.registry.entry? s = some e' ∧ e.Continues e')
    (hnew : ∀ task x, result.task.ongoing? = some task → task.candidate? s = some x →
      ∃ e, result.coordinator.registry.entry? s = some e ∧ e.Receives task x.1)
    (t' : TaskId) (task : Task) (x : Endpoint × Candidate)
    (he : .issued t' task ∈ since s (b.take t before reply calls result).log)
    (hx : task.candidate? s = some x) :
    ∃ e, result.coordinator.registry.entry? s = some e ∧ e.Receives task x.1 := by
  rw [since_take hquiet] at he
  rcases List.mem_append.mp he with he | he
  · obtain ⟨e, hentry, hreceives⟩ := rel.current t' task x he hx
    obtain ⟨e', hentry', hc⟩ := hcontinues e hentry hreceives.running
    exact ⟨e', hentry', hreceives.continues hc⟩
  · rcases mem_takeEvents he with ⟨_, _, heq⟩ | ⟨_, _, heq⟩ | ⟨_, hafter, heq⟩ <;> cases heq
    exact hnew task x hafter hx

theorem Relayed.take
    (hbalance : (applied s b.log ++ (result.task.ongoing?.bind (Task.candidate? s)).toList).map Prod.snd ++
      result.coordinator.registry.buffer.waiting s =
        submitted s b.log ++ calls.filterMap (Registry.Call.submitted? s))
    (hcontinues : ∀ e, b.coordinator.registry.entry? s = some e → ¬ e.stopped →
      ∃ e', result.coordinator.registry.entry? s = some e' ∧ e.Continues e')
    (hnew : ∀ task x, result.task.ongoing? = some task → task.candidate? s = some x →
      ∃ e, result.coordinator.registry.entry? s = some e ∧ e.Receives task x.1)
    (hqueue : ∀ e, result.coordinator.registry.entry? s = some e → e.endpointReady → ¬ e.stopped →
      result.coordinator.registry.buffer.hasQueue s = false)
    (hopen : (result.task.ongoing?.bind (Task.candidate? s)).isSome → ∀ t' task,
      .issued t' task ∈ since s b.log → (task.candidate? s).isSome →
      b.tasks.get? t' = some task → t' = t) :
    Relayed s (b.take t before reply calls result) where
  balance := by
    rw [applied_take hquiet, submitted_take hquiet]
    exact hbalance
  current := rel.current_take hquiet hcontinues hnew
  queue := hqueue
  answered := rel.answered_take ht hquiet
  sequential := rel.sequential_take ht hquiet hopen

end Take

section Cases
variable {s : SessionId} {b : Broadcast} {a : Action} {t : TaskId} {before : Option Task}
  {reply : Option Reply} {calls : List Registry.Call} {result : StepResult} (h : b.Consistent)
  (rel : Relayed s b)
include rel

theorem Relayed.waiting_eq_nil {e : Entry} (he : b.coordinator.registry.entry? s = some e)
    (hready : e.endpointReady) (hrunning : ¬ e.stopped) :
    b.coordinator.registry.buffer.waiting s = [] := by
  have hq := rel.queue e he hready hrunning
  unfold CandidateBuffer.hasQueue Table.contains at hq
  rw [CandidateBuffer.waiting, Option.isSome_eq_false_iff.mp hq |> Option.isNone_iff_eq_none.mp]
  rfl

theorem Relayed.take_of_leaves (ht : Taken b a t before reply calls result)
    (hquiet : ∀ d ∈ b.coordinator.registry.log calls, d.call.clears d.before s = false)
    (hsubmit : ∀ c, Registry.Call.submit s c ∉ calls)
    (hafter : result.task.ongoing?.bind (Task.candidate? s) = none)
    (hsteady : Registry.Steady s b.coordinator.registry (b.coordinator.registry.after calls)) :
    Relayed s (b.take t before reply calls result) := by
  rw [← ht.follows.registry] at hsteady
  refine rel.take ht hquiet ?_ hsteady.continues ?_ ?_ ?_
  · have hwaiting : result.coordinator.registry.buffer.waiting s =
        b.coordinator.registry.buffer.waiting s := congrArg (Option.getD · []) hsteady.queue
    rw [submitted?_eq_nil s hsubmit, hafter, hwaiting]
    simpa using rel.balance
  · intro task x htask hx
    rw [htask] at hafter
    cases hafter.symm.trans hx
  · intro e he hready hrunning
    obtain ⟨e₀, he₀, hready₀, hrunning₀⟩ := hsteady.ready e he hready hrunning
    have hq := rel.queue e₀ he₀ hready₀ hrunning₀
    unfold CandidateBuffer.hasQueue Table.contains at hq ⊢
    rw [hsteady.queue, hq]
  · intro hsome
    rw [hafter] at hsome
    cases hsome

include h

/-- A candidate that has to wait is the last one that waits. -/
theorem Relayed.take_of_buffers {c : Candidate} (ht : Taken b a t none none [.submit s c] result)
    (hafter : result.task.ongoing? = none)
    (hans : b.coordinator.registry.answer (.submit s c) = .destination .buffered) :
    Relayed s (b.take t none none [.submit s c] result) := by
  obtain ⟨hnext, hno⟩ := Registry.next_of_buffered hans
  have hreg := ht.follows.registry.trans hnext
  refine rel.take ht ?_ ?_ ?_ ?_ ?_ ?_
  · intro d hd
    obtain rfl := List.mem_singleton.mp hd
    rfl
  · rw [hafter, hreg, CandidateBuffer.waiting_push, ← rel.balance]
    simp [Registry.Call.submitted?]
  · intro e he hs
    rw [hreg]
    exact ⟨e, he, .refl hs⟩
  · intro task x htask _
    cases hafter.symm.trans htask
  · intro e he hready hs
    rw [hreg] at he
    have hsome := h.endpoint_of_ready (Registry.mem_entries_of_current he) hready
    rw [hno e he hready hs] at hsome
    cases hsome
  · intro hsome
    rw [hafter] at hsome
    cases hsome

omit rel in
/-- A negotiation that gives a candidate to the endpoint of the current entry is still draining. -/
theorem Consistent.not_ready_of_applying {t' : TaskId} {n : Negotiation} {endpoint : Endpoint}
    {c : Candidate} {e : Entry} (hn : b.tasks.get? t' = some (.negotiation n (.applying endpoint c)))
    (he : e ∈ b.coordinator.registry.entries) (ha : e.attempt = n.attempt) :
    e.endpointReady = false := by
  obtain ⟨x, hx, _, _, hready⟩ := h.hasEntry t' n (.applying endpoint c) ⟨hn, rfl⟩
  rwa [h.wellFormed.eq_of_attempt? hx he ha]

/-- Who waits for an answer: the negotiation of the current entry, or a task that serves a message. -/
theorem Relayed.open_cases {t' : TaskId} {task : Task} (hissued : .issued t' task ∈ since s b.log)
    (hc : (task.candidate? s).isSome) (hwaits : b.tasks.get? t' = some task) {e : Entry}
    (he : b.coordinator.registry.entry? s = some e) :
    (e.endpointReady = false ∧ ∃ n stage, b.Leads t' n stage ∧ e.attempt = n.attempt) ∨
      e.endpointReady ∧ b.serves s := by
  obtain ⟨x, hx⟩ := Option.isSome_iff_exists.mp hc
  obtain ⟨e', he', hreceives⟩ := rel.current t' task x hissued hx
  cases he.symm.trans he'
  rcases candidate?_cases hx with ⟨n, rfl, _⟩ | rfl
  · have ha := hreceives.attempt n _ rfl
    exact Or.inl ⟨h.not_ready_of_applying hwaits (Registry.mem_entries_of_current he) ha, n, _,
      ⟨hwaits, rfl⟩, ha⟩
  · have hmem := Multiset.mem_coe.mp (Table.mem_contents hwaits)
    exact Or.inr ⟨hreceives.ready s _ _ rfl,
      List.any_eq_true.mpr ⟨_, hmem, by simp [Task.serves]⟩⟩

/-- A candidate goes straight to the endpoint when nothing waits and no call is open. -/
theorem Relayed.take_of_applies {c : Candidate} {endpoint : Endpoint}
    (ht : Taken b a t none none [.submit s c] result) (hserves : b.serves s = false)
    (hafter : result.task.ongoing? = some (.apply s endpoint c))
    (hans : b.coordinator.registry.answer (.submit s c) = .destination (.apply endpoint c)) :
    Relayed s (b.take t none none [.submit s c] result) := by
  obtain ⟨hnext, _, e, he, hready, hs, hep⟩ := Registry.next_of_applied hans
  have hreg := ht.follows.registry.trans hnext
  have hwaiting := rel.waiting_eq_nil he hready hs
  refine rel.take ht ?_ ?_ ?_ ?_ ?_ ?_
  · intro d hd
    obtain rfl := List.mem_singleton.mp hd
    rfl
  · have hbalance := rel.balance
    rw [hwaiting, List.append_nil] at hbalance
    rw [hafter, hreg, hwaiting, ← hbalance]
    simp [candidate?_apply, Registry.Call.submitted?]
  · intro e he hs
    rw [hreg]
    exact ⟨e, he, .refl hs⟩
  · intro task x htask hx
    cases hafter.symm.trans htask
    rw [candidate?_apply, if_pos rfl] at hx
    cases hx
    rw [hreg]
    refine ⟨e, he, hs, hep, ?_, fun _ _ _ _ => hready⟩
    intro n stage heq
    cases heq
  · rw [hreg]
    exact rel.queue
  · -- an open call would belong to a negotiation that still drains, or to another message
    intro _ t' task hissued hc hwaits
    rcases rel.open_cases h hissued hc hwaits he with ⟨hno, _⟩ | ⟨_, hyes⟩
    · cases hno.symm.trans hready
    · cases hserves.symm.trans hyes

section Drains
variable {n : Negotiation} {stage : NegotiationStage} {endpoint : Endpoint} {e : Entry}
  (hn : b.tasks.get? t = some (.negotiation n stage)) (hdrains : stage.Drains endpoint)
  (hrun : b.coordinator.registry.running? n.session n.attempt = some e)
include hn hdrains hrun

omit rel in
/-- A negotiation drains the queue for the current entry of its session. -/
theorem Consistent.draining_entry :
    b.coordinator.registry.entry? n.session = some e ∧ ¬ e.stopped ∧ e.attempt = n.attempt ∧
      e.endpoint = some endpoint ∧ e.endpointReady = false := by
  have w := h.wellFormed
  obtain ⟨he, hs⟩ := (Registry.running?_eq_some_iff _ _ _ _).mp hrun
  obtain ⟨x, hx, _, hfits⟩ :=
    h.hasEntry t n stage ⟨hn, NegotiationStage.isLive_of_drains hdrains⟩
  cases hx.symm.trans he
  obtain ⟨hep, hready⟩ := NegotiationStage.fits_of_drains hdrains hfits
  exact ⟨w.isCurrent_of_attempt? he hs, hs, (w.mem_of_attempt? he).2, hep, hready⟩

/-- While a negotiation drains the queue, nobody else gives a candidate to the endpoint. -/
theorem Relayed.open_draining (hs : n.session = s) {t' : TaskId} {task : Task}
    (hissued : .issued t' task ∈ since s b.log) (hc : (task.candidate? s).isSome)
    (hwaits : b.tasks.get? t' = some task) : t' = t := by
  obtain ⟨he, _, ha, _, hready⟩ := h.draining_entry hn hdrains hrun
  rw [hs] at he
  rcases rel.open_cases h hissued hc hwaits he with ⟨_, n', stage', hleads, ha'⟩ | ⟨hyes, _⟩
  · exact h.one_leader t' t n' n stage' stage hleads
      ⟨hn, NegotiationStage.isLive_of_drains hdrains⟩ (ha'.symm.trans ha)
  · cases hready.symm.trans hyes

end Drains

/-- The oldest candidate that waits is given to the endpoint. -/
theorem Relayed.take_of_pops {n : Negotiation} {stage : NegotiationStage} {endpoint : Endpoint}
    {text : String} {c : Candidate}
    (ht : Taken b a t (some (.negotiation n stage)) (some (.ok text)) [.nextCandidate s n.attempt] result)
    (hs : n.session = s) (hdrains : stage.Drains endpoint)
    (hafter : result.task.ongoing? = some (.negotiation n (.applying endpoint c)))
    (hans : b.coordinator.registry.answer (.nextCandidate s n.attempt) = .candidate (some c)) :
    Relayed s (b.take t (some (.negotiation n stage)) (some (.ok text))
      [.nextCandidate s n.attempt] result) := by
  obtain ⟨e, rest, hrun, hwaiting, hnext⟩ := Registry.next_of_popped hans
  have hreg := ht.follows.registry.trans hnext
  subst hs
  obtain ⟨he, hst, ha, hep, hready⟩ := h.draining_entry ht.task hdrains hrun
  refine rel.take ht ?_ ?_ ?_ ?_ ?_ ?_
  · intro d hd
    obtain rfl := List.mem_singleton.mp hd
    rfl
  · have hrest : result.coordinator.registry.buffer.waiting n.session = rest := by
      rw [hreg]
      simp [CandidateBuffer.waiting]
    rw [hafter, hrest]
    simp [candidate?_applying, Registry.Call.submitted?, ← rel.balance, hwaiting]
  · intro e' he' hs'
    rw [hreg]
    exact ⟨e', he', .refl hs'⟩
  · intro task x htask hx
    cases hafter.symm.trans htask
    rw [candidate?_applying, if_pos rfl] at hx
    cases hx
    rw [hreg]
    refine ⟨e, he, hst, hep, ?_, fun _ _ _ h => by cases h⟩
    intro n' stage' heq
    cases heq
    exact ha
  · intro e' he' hready'
    rw [hreg] at he'
    cases he.symm.trans he'
    cases hready.symm.trans hready'
  · intro _ t' task hissued hc hwaits
    exact rel.open_draining h ht.task hdrains hrun rfl hissued hc hwaits

theorem Relayed.take_of_drains {n : Negotiation} {stage : NegotiationStage} {endpoint : Endpoint}
    {text : String}
    (ht : Taken b a t (some (.negotiation n stage)) (some (.ok text)) [.nextCandidate s n.attempt] result)
    (hs : n.session = s) (hdrains : stage.Drains endpoint)
    (hafter : result.task.ongoing? = some (.negotiation n (.subscribing endpoint)))
    (hans : b.coordinator.registry.answer (.nextCandidate s n.attempt) = .candidate none) :
    Relayed s (b.take t (some (.negotiation n stage)) (some (.ok text))
      [.nextCandidate s n.attempt] result) := by
  obtain ⟨e, hrun, hwaiting, hnext⟩ := Registry.next_of_drained hans
  have hreg := ht.follows.registry.trans hnext
  subst hs
  obtain ⟨he, hst, ha, _⟩ := h.draining_entry ht.task hdrains hrun
  have hnone : (some (Task.negotiation n (.subscribing endpoint))).bind
      (Task.candidate? n.session) = none := rfl
  have hgone : result.coordinator.registry.buffer.queues.get? n.session = none := by
    rw [hreg]
    exact Table.get?_erase_self _ _
  refine rel.take ht ?_ ?_ ?_ ?_ ?_ ?_
  · intro d hd
    obtain rfl := List.mem_singleton.mp hd
    rfl
  · have hempty : result.coordinator.registry.buffer.waiting n.session = [] :=
      congrArg (Option.getD · []) hgone
    rw [hafter, hnone, hempty, ← rel.balance, hwaiting]
    simp [Registry.Call.submitted?]
  · intro e' he' hs'
    cases he.symm.trans he'
    have hentry := h.wellFormed.entry?_modifyAttempt (h.wellFormed.attempt?_of_current he)
      (fun e => { e with endpointReady := true }) n.session
    rw [ha, he, Option.map_some, if_pos ha] at hentry
    rw [hreg]
    exact ⟨_, hentry, rfl, hst, fun _ => rfl, fun _ => id⟩
  · intro task x htask hx
    cases hafter.symm.trans htask
    cases hx
  · intro e' _ _ _
    exact congrArg Option.isSome hgone
  · intro hsome
    rw [hafter, hnone] at hsome
    cases hsome

end Cases

theorem session_of_submit {c : Coordinator} {q : Request} {s : SessionId} {candidate : Candidate}
    (h : [.submit s candidate] = requestCalls c q) : q.session? = some s := by
  cases q with
  | prepare s' role offer =>
    simp only [requestCalls] at h
    split at h <;> cases h
  | submit s' c' =>
    cases h
    rfl
  | shutdown order =>
    simp only [requestCalls] at h
    have hm : Registry.Call.submit s candidate ∈ (c.registry.stopped order).map .stop :=
      h ▸ List.mem_singleton_self _
    obtain ⟨_, _, heq⟩ := List.mem_map.mp hm
    cases heq
  | _ => cases h

theorem Relayed.step {s : SessionId} {b b' : Broadcast} {a : Action} (h : b.Consistent)
    (rel : Relayed s b) (hstep : Step b a b')
    (hserial : ∀ q, a = .request q → q.session? = some s → b.serves s = false) : Relayed s b' := by
  obtain ⟨t, before, reply, calls, result, ht, rfl⟩ := hstep.taken h
  have hpasses := ht.follows.move.passes h.wellFormed (h.hasEntry_before ht.task) s
  generalize hafter : result.task.ongoing? = after at hpasses
  cases hpasses with
  | clears hclears hsubmit hnone hqueue =>
    exact ht.relayed_of_clears hclears hsubmit (hafter ▸ hnone) hqueue
  | leaves hquiet hsubmit hnone hsteady =>
    exact rel.take_of_leaves ht hquiet hsubmit (hafter ▸ hnone) hsteady
  | buffers hans => exact rel.take_of_buffers h ht hafter hans
  | applies hans =>
    obtain ⟨q, ha, hcalls⟩ := ht.request rfl
    exact rel.take_of_applies h ht (hserial q ha (session_of_submit hcalls)) hafter hans
  | pops hs hdrains hans => exact rel.take_of_pops h ht hs hdrains hafter hans
  | drains hs hdrains hans => exact rel.take_of_drains h ht hs hdrains hafter hans

theorem relayed_run {s : SessionId} (actions : List Action) {b : Broadcast} (h : b.Consistent)
    (rel : Relayed s b) (hserial : Serial s b actions) : Relayed s (b.run actions) := by
  induction actions generalizing b with
  | nil => exact rel
  | cons a rest ih =>
    obtain ⟨hfirst, hrest⟩ := hserial
    change Relayed s ((b.step a).run rest)
    cases hstep : b.step? a with
    | none =>
      have hsame : b.step a = b := by simp [Broadcast.step, hstep]
      rw [hsame] at hrest ⊢
      exact ih h rel hrest
    | some b' =>
      have hnext : b.step a = b' := by simp [Broadcast.step, hstep]
      rw [hnext] at hrest ⊢
      exact ih (h.step (step?_spec hstep)) (rel.step h (step?_spec hstep) hfirst) hrest

theorem Serial.relayed {s : SessionId} {actions : List Action} (h : Serial s {} actions) :
    Relayed s (run {} actions) :=
  relayed_run actions consistent_empty (relayed_empty s) h

theorem Serial.earlier {s : SessionId} {b : Broadcast} {earlier later : List Action}
    (h : Serial s b (earlier ++ later)) : Serial s b earlier := by
  induction earlier generalizing b with
  | nil => trivial
  | cons a rest ih => exact ⟨h.1, ih h.2⟩

/-- Candidates were given to the endpoint of the current entry, which was not stopped since. -/
theorem Relayed.receives {s : SessionId} {b : Broadcast} (rel : Relayed s b) {x : Endpoint × Candidate}
    (hx : x ∈ applied s b.log) :
    ∃ e, b.coordinator.registry.entry? s = some e ∧ ¬ e.stopped ∧ e.endpoint = some x.1 := by
  obtain ⟨event, he, happlied⟩ := List.mem_filterMap.mp hx
  cases event with
  | called | replied => cases happlied
  | issued t task =>
    obtain ⟨e, hentry, hreceives⟩ := rel.current t task x he happlied
    exact ⟨e, hentry, hreceives.running, hreceives.endpoint⟩

theorem Relayed.one_endpoint {s : SessionId} {b : Broadcast} (rel : Relayed s b)
    {x y : Endpoint × Candidate} (hx : x ∈ applied s b.log) (hy : y ∈ applied s b.log) :
    x.1 = y.1 := by
  obtain ⟨e, he, _, hepx⟩ := rel.receives hx
  obtain ⟨e', he', _, hepy⟩ := rel.receives hy
  cases he.symm.trans he'
  exact Option.some.inj (hepx.symm.trans hepy)

/--
When the messages of a session are served one after the other: since its candidates were last cleared,
those given to an endpoint, followed by those that wait, are those submitted, in order; all were given
to one endpoint, each after the one before it was answered; and nothing waits for an entry that lets
candidates go straight to its endpoint.
-/
theorem candidates_in_order (s : SessionId) (actions : List Action) (hserial : Serial s {} actions) :
    let b := run {} actions
    (applied s b.log).map Prod.snd ++ b.coordinator.registry.buffer.waiting s = submitted s b.log ∧
    (∀ x ∈ applied s b.log, ∀ y ∈ applied s b.log, x.1 = y.1) ∧
    (∀ earlier event later, since s b.log = earlier ++ event :: later →
      (event.applied? s).isSome → Answered s earlier) ∧
    (∀ e, b.coordinator.registry.entry? s = some e → e.endpointReady → ¬ e.stopped →
      b.coordinator.registry.buffer.hasQueue s = false) := by
  have rel := relayed_run actions consistent_empty (relayed_empty s) hserial
  exact ⟨rel.balance, fun x hx y hy => rel.one_endpoint hx hy, rel.sequential, rel.queue⟩

/-- A presenter sends one candidate at once, and another while the first is given to the endpoint. -/
def earlyCandidates : List Action :=
  [.request (.prepare ⟨1⟩ .presenter "offer"), .request (.submit ⟨1⟩ { line := "first" }), .turn ⟨0⟩,
    .reply ⟨0⟩ (.ok "pipeline"), .reply ⟨0⟩ (.ok "mixer"), .reply ⟨0⟩ (.ok "endpoint"),
    .reply ⟨0⟩ (.ok "port"), .reply ⟨0⟩ (.ok ""), .request (.submit ⟨1⟩ { line := "second" })]

theorem early_candidates_in_order :
    Serial ⟨1⟩ {} earlyCandidates ∧
      (applied ⟨1⟩ (run {} earlyCandidates).log).map Prod.snd ++ [{ line := "second" }] =
        [{ line := "first" }, { line := "second" }] := by
  have hserial : Serial ⟨1⟩ {} earlyCandidates :=
    ⟨fun _ _ _ => rfl, fun _ _ _ => rfl, fun _ _ _ => rfl, fun _ _ _ => rfl, fun _ _ _ => rfl,
      fun _ _ _ => rfl, fun _ _ _ => rfl, fun _ _ _ => rfl, fun _ _ _ => rfl, trivial⟩
  exact ⟨hserial, (candidates_in_order ⟨1⟩ earlyCandidates hserial).1⟩

end Broadcast

end Rostrum
