import Rostrum.Proofs.Broadcast.Counters

/-!
# The sessions that the gauges count

An entry becomes ready once. From then on it stands in the registry until a stop takes it out, and the
task of that stop has it in hand until the last of its objects is released. What a negotiation takes
down never became ready. So the gauge of a role shows the ready entries of the role and those that a
stop is taking down, which are as many as negotiations were accepted less those taken down.
-/

namespace Rostrum

open Broadcast

namespace Registry.WellFormed
variable {r : Registry} (w : r.WellFormed) (role : Role)
include w

theorem tally_takeOut {s : SessionId} {a : Attempt} {e : Entry} (h : r.attempt? s a = some e) :
    tally role (r.takeOut s a).entries + tally role ([e] : List Entry) = tally role r.entries := by
  rw [w.entries_takeOut h, ← Multiset.singleton_add, tally_add, Nat.add_comm]
  rfl

/-- What is ready was so before, or the call makes it ready; and it stays or is handed out. -/
theorem tally_next (call : Call) :
    tally role (r.next call).entries + tally role ((Deed.mk r call).handedOut : List Entry) =
      tally role r.entries + tally role ((Deed.mk r call).completed : List Entry) := by
  have ho := r.perform_outcome call
  unfold Deed.handedOut Deed.completed Deed.answer
  revert ho
  generalize r.answer call = ans
  generalize r.next call = r'
  intro ho
  cases ho with
  | roleTaken | endpointUnknown | portUnknown | checked | checkedStopped | popped | drainStopped
  | applied | buffered | finishStopped | stoppedNothing | removedNothing => rfl
  | entered he => exact w.tally_addAttempt role he _
  | @enteredAnew s role' e he hs =>
    have hadded := (w.supersede he hs).tally_addAttempt role (w.entry?_supersede_self he) role'
    rw [w.entries_supersede he] at hadded
    exact hadded
  | @endpointSet s a endpoint e he | @portSet s a port e he =>
    cases hs : e.stopped <;> exact w.tally_modifyAttempt role he (fun _ => rfl) (fun _ => rfl)
  | drained hrun => exact w.tally_modifyAttempt role (attempt?_of_running hrun) (fun _ => rfl) (fun _ => rfl)
  | marked he => exact w.tally_modifyAttempt role (w.attempt?_of_current he) (fun _ => rfl) (fun _ => rfl)
  | tornDown he | removedCurrent he => exact w.tally_takeOut role (w.attempt?_of_current he)
  | @removedSuperseded s a e _ he => exact w.tally_takeOut role (w.attempt?_of_superseded he s)
  | @finished s a e hrun =>
    have he := attempt?_of_running hrun
    cases hphase : e.phase with
    | pending =>
      have hready := w.tally_finish role he hphase
      have hcounts : tally role {{ e with phase := .ready }} = if e.role = role then 1 else 0 := by
        rw [tally_singleton]
        simp only [Entry.counts, true_and]
      simp only [he, Option.filter_some, hphase]
      rw [← hcounts] at hready
      exact hready
    | ready =>
      obtain ⟨rest, hold, hnew⟩ := w.entries_modifyAttempt he fun e => { e with phase := .ready }
      have hsame : { e with phase := .ready } = e := by rw [← hphase]
      rw [hnew, hsame, ← hold]
      simp only [he, Option.filter_some, hphase]
      rfl

theorem tally_after (calls : List Call) :
    tally role (r.after calls).entries + tally role (handedOut (r.log calls) : List Entry) =
      tally role r.entries + tally role (completed (r.log calls) : List Entry) := by
  induction calls generalizing r with
  | nil => rfl
  | cons call rest ih =>
    have hnext := w.tally_next role call
    have hafter := ih (w.next call)
    have hout : handedOut (r.log (call :: rest)) =
        (Deed.mk r call).handedOut ++ handedOut ((r.next call).log rest) := rfl
    have hin : completed (r.log (call :: rest)) =
        (Deed.mk r call).completed ++ completed ((r.next call).log rest) := rfl
    rw [hout, hin, ← Multiset.coe_add, ← Multiset.coe_add, tally_add, tally_add, after_cons]
    omega

/-- A stop makes nothing ready. -/
theorem ready_before_stop {s : SessionId} {e : Entry} (he : e ∈ (r.next (.stop s)).entries)
    (hready : e.phase = .ready) : e ∈ r.entries := by
  rw [next_stop] at he
  rcases r.stop_cases s with ⟨_, hr⟩ | ⟨x, hx, hpending, hr⟩ | ⟨x, hx, _, hr⟩ <;> rw [hr] at he
  · exact he
  · obtain ⟨rest, hold, hnew⟩ := w.entries_modifyAttempt (w.attempt?_of_current hx)
      fun e => { e with stopped := true }
    have he' : e ∈ { x with stopped := true } ::ₘ rest := hnew ▸ he
    rw [hold]
    rcases Multiset.mem_cons.mp he' with rfl | hrest
    · cases hready.symm.trans hpending
    · exact Multiset.mem_cons_of_mem hrest
  · rw [w.entries_takeOut (w.attempt?_of_current hx)]
    exact Multiset.mem_cons_of_mem he

/-- What stops take out was there and ready before the first of them. -/
theorem ready_before_stops {sessions : List SessionId} {e : Entry}
    (he : e ∈ handedOut (r.log (sessions.map .stop))) : e ∈ r.entries := by
  induction sessions generalizing r with
  | nil => cases he
  | cons s left ih =>
    rcases List.mem_append.mp he with hfirst | hlater
    · exact (w.handedOut_next hfirst).1
    · exact w.ready_before_stop (ih (w.next (.stop s)) hlater) (ready_of_stops hlater)

end Registry.WellFormed

/-- Whether a task takes down what a stop took out of the registry. -/
def Task.isStop : Task → Bool
  | .stop _ _ _ => true
  | .shutdown (.stopping _ _) => true
  | _ => false

/-- Whether a call is a stop. -/
def Registry.Deed.isStop (d : Registry.Deed) : Bool :=
  match d.call with
  | .stop _ => true
  | _ => false

theorem Registry.Deed.call_of_isStop {d : Registry.Deed} (h : d.isStop) : ∃ s, d.call = .stop s := by
  unfold isStop at h
  split at h
  · exact ⟨_, by assumption⟩
  · cases h

namespace Broadcast

/--
The entry whose last object is released, when the reply to that comes. An entry without objects is left
out; one that is ready has an endpoint.
-/
def Event.finished? : Event → Option Entry
  | .replied _ task _ => (task.teardown?.filter fun d => d.rest.isEmpty).map Teardown.entry
  | _ => none

/-- The entries that were taken down. -/
def finished (log : List Event) : List Entry := log.filterMap Event.finished?

/-- The entries that stops took out of the registry. -/
def stopped (log : List Event) : List Entry :=
  Registry.handedOut ((deeds log).filter Registry.Deed.isStop)

/-- The entries that stops took out of the registry and that are still being taken down. -/
def leaving (b : Broadcast) : Multiset Entry :=
  (b.tasks.contents.filter fun task => task.isStop).bind fun task => inHand (some task)

/-! ## From the registry to the end of its release -/

theorem finished_append (log more : List Event) : finished (log ++ more) = finished log ++ finished more :=
  List.filterMap_append

theorem finished_takeEvents {r : Registry} {t : TaskId} {before : Option Task} {reply : Option Reply}
    {calls : List Registry.Call} {after : Option Task}
    (hreplied : ∀ task, before = some task → task.call?.isSome → reply.isSome) :
    finished (takeEvents r t before reply calls after) =
      ((before.bind Task.teardown?).filter fun d => d.rest.isEmpty).toList.map Teardown.entry := by
  have hlater : ((r.log calls).map Event.called ++ issuedEvents t after).filterMap Event.finished? = [] := by
    rw [List.filterMap_append, List.filterMap_map]
    rcases issuedEvents_cases t after with ⟨h, _⟩ | ⟨task, _, h⟩ <;> rw [h] <;>
      simp [Event.finished?, Function.comp_def]
  rw [takeEvents, List.append_assoc, finished_append, finished, finished, hlater, List.append_nil]
  cases before with
  | none => rfl
  | some task =>
    cases hd : task.teardown? with
    | none => cases reply <;> simp [repliedEvents, Event.finished?, hd]
    | some d =>
      have hcall := hreplied task rfl (by rw [Task.call?_of_teardown? hd]; rfl)
      obtain ⟨reply, rfl⟩ := Option.isSome_iff_exists.mp hcall
      cases hrest : d.rest.isEmpty <;>
        simp [repliedEvents, Event.finished?, hd, Option.filter_some, hrest]

/-- What was in hand or was handed out is in hand afterwards, or its last object was released. -/
theorem Disposes.tally_eq {d : Option Teardown} {es : List Entry} {after : Option Task}
    (h : Disposes d es after) (hes : ∀ e ∈ es, e.phase = .ready → e.objects ≠ []) (role : Role) :
    tally role (d.toList.map Teardown.entry : List Entry) + tally role (es : List Entry) =
      tally role (inHand after) +
        tally role ((d.filter fun d => d.rest.isEmpty).toList.map Teardown.entry : List Entry) := by
  have hlast : ∀ d : Option Teardown, (∀ x ∈ d, x.rest = []) →
      (d.filter fun d => d.rest.isEmpty) = d := by
    intro d hd
    cases d with
    | none => rfl
    | some x => simp [hd x rfl]
  have hnone : ∀ es : List Entry, (∀ e ∈ es, e.phase = .ready → e.objects ≠ []) →
      (∀ e ∈ es, e.objects = []) → tally role (es : List Entry) = 0 := by
    intro es hes hempty
    refine Multiset.countP_eq_zero.mpr ?_
    rintro e he ⟨hready, _⟩
    exact hes e he hready (hempty e he)
  cases h with
  | @goesOn d o rest task hrest ht =>
    have hlater : (Option.filter (fun d : Teardown => d.rest.isEmpty) (some d)) = none := by
      simp [hrest]
    have hhand : inHand (some task) = ([d.entry] : List Entry) := by
      simp [inHand, ht]
    rw [hlater, hhand]
    rfl
  | @begins _ es e o rest task hrest hempty ho ht =>
    have hearlier := hnone es (fun e he => hes e (List.mem_append_left _ he)) hempty
    have hhand : inHand (some task) = ([e] : List Entry) := by
      simp [inHand, ht]
    rw [hlast d hrest, hhand, ← Multiset.coe_add, tally_add, hearlier]
    omega
  | ends hrest hempty hmix =>
    have hhand : inHand after = 0 := by
      cases after with
      | none => rfl
      | some task =>
        have htask := hmix task rfl
        unfold Task.isMix at htask
        split at htask <;> first | rfl | cases htask
    rw [hlast d hrest, hhand, hnone es hes hempty]
    exact Nat.add_comm _ _

theorem teardown?_of_live {n : Negotiation} {stage : NegotiationStage} (h : stage.isLive) :
    (Task.negotiation n stage).teardown? = none := by
  cases stage <;> first | rfl | cases h

/-- A negotiation that gives up finds its entry as it was: not ready. -/
theorem HasEntry.pending {r : Registry} (w : r.WellFormed) {n : Negotiation} {stage : NegotiationStage}
    (h : HasEntry r n stage) {reply : Option Reply}
    (hask : ∀ call ∈ stage.asks n reply, call.stores ∨ r.next call = r) :
    ∃ e, (r.after (stage.asks n reply).toList).attempt? n.session n.attempt = some e ∧
      e.phase = .pending := by
  obtain ⟨e, he, hpending, _⟩ := h
  cases hasked : stage.asks n reply with
  | none => exact ⟨e, he, hpending⟩
  | some call =>
    obtain ⟨ha, hs, _⟩ := NegotiationStage.asks_attempt? hasked
    change ∃ e, (r.next call).attempt? n.session n.attempt = some e ∧ e.phase = .pending
    rcases hask call hasked with hstores | hsame
    · cases call with
      | setEndpoint s a endpoint =>
        obtain rfl : a = n.attempt := Option.some.inj ha
        obtain rfl : s = n.session := hs
        exact ⟨_, w.attempt?_setEndpoint he endpoint, hpending⟩
      | setPort s a port =>
        obtain rfl : a = n.attempt := Option.some.inj ha
        obtain rfl : s = n.session := hs
        exact ⟨_, w.attempt?_setPort he port, hpending⟩
      | _ => cases hstores
    · rw [hsame]
      exact ⟨e, he, hpending⟩

section Moves
variable {r : Registry} {before after : Option Task} {reply : Option Reply}
  {calls : List Registry.Call} (m : Move r before reply calls after) (w : r.WellFormed)
  (hentry : ∀ n stage, before = some (.negotiation n stage) → stage.isLive → HasEntry r n stage)
include m w hentry

/-- What is not taken out by a stop is not ready. -/
theorem Move.pending_of_handedOut {d : Registry.Deed} (hd : d ∈ r.log calls) {e : Entry}
    (he : e ∈ d.handedOut) : d.isStop ∨ e.phase = .pending := by
  have hno : ∀ {call : Registry.Call}, ¬ call.takes → d ∉ r.log [call] := by
    intro call htakes hd
    obtain rfl := List.mem_singleton.mp hd
    rw [Registry.Deed.handedOut_eq_nil htakes] at he
    cases he
  cases m with
  | waits | obtains | goesOn => cases hd
  | disposes =>
    obtain ⟨s, _, hcall⟩ := List.mem_map.mp (Registry.call_of_mem_log hd)
    exact Or.inl (by simp [Registry.Deed.isStop, ← hcall])
  | @givesUp n stage reply after hlive hask =>
    rw [Registry.log_append] at hd
    rcases List.mem_append.mp hd with hd | hd
    · have hcall := Option.mem_toList.mp (Registry.call_of_mem_log hd)
      rw [Registry.Deed.handedOut_eq_nil (NegotiationStage.not_takes_of_asks hcall)] at he
      cases he
    · obtain rfl := List.mem_singleton.mp hd
      obtain ⟨x, hx, hpending⟩ := (hentry n stage rfl hlive).pending w hask
      rw [Registry.Deed.handedOut_remove, Registry.attempt?_remove hx] at he
      obtain rfl := List.mem_singleton.mp he
      exact Or.inr hpending
  | enters | refused | buffers | applies | endpointMade | portMade | applying | drained | completes =>
    exact (hno (by exact Bool.false_ne_true) hd).elim

/-- What a step finds in hand or takes out is in hand afterwards, or it is taken down. -/
theorem Move.tally_eq (hep : ∀ e ∈ r.entries, e.phase = .ready → e.endpoint.isSome) (role : Role) :
    tally role (inHand before) + tally role (Registry.handedOut (r.log calls) : List Entry) =
      tally role (inHand after) + tally role
        (((before.bind Task.teardown?).filter fun d => d.rest.isEmpty).toList.map Teardown.entry :
          List Entry) := by
  have hquiet : before.bind Task.teardown? = none → after.bind Task.teardown? = none →
      Registry.handedOut (r.log calls) = [] →
      tally role (inHand before) + tally role (Registry.handedOut (r.log calls) : List Entry) =
        tally role (inHand after) + tally role
          (((before.bind Task.teardown?).filter fun d => d.rest.isEmpty).toList.map Teardown.entry :
            List Entry) := by
    intro hb ha hout
    simp only [inHand, hb, ha, hout]
    rfl
  have hnone : ∀ {call : Registry.Call}, ¬ call.takes → Registry.handedOut (r.log [call]) = [] := by
    intro call htakes
    rw [Registry.handedOut_log_singleton, Registry.Deed.handedOut_eq_nil htakes]
  have m' := m
  cases m with
  | enters | refused | buffers | applies | endpointMade | portMade | completes =>
    exact hquiet rfl rfl (hnone (by exact Bool.false_ne_true))
  | waits hseeks | obtains hseeks =>
    exact hquiet (teardown?_of_live (NegotiationStage.isLive_of_seeksMix hseeks)) rfl rfl
  | applying hdrains | drained hdrains =>
    exact hquiet (teardown?_of_live (NegotiationStage.isLive_of_drains hdrains)) rfl
      (hnone (by exact Bool.false_ne_true))
  | goesOn hdrained hdrained' =>
    exact hquiet (teardown?_of_live (NegotiationStage.isLive_of_drained hdrained))
      (teardown?_of_live (NegotiationStage.isLive_of_drained hdrained')) rfl
  | disposes _ hd =>
    refine hd.tally_eq (fun e he hready hempty => ?_) role
    have hendpoint := hep e (w.ready_before_stops he) hready
    simp [Entry.objects] at hempty
    simp [hempty] at hendpoint
  | @givesUp n stage reply after hlive hask hd =>
    have hlivenone : (some (Task.negotiation n stage)).bind Task.teardown? = none := teardown?_of_live hlive
    rw [inHand, hlivenone]
    refine hd.tally_eq (fun e he hready _ => ?_) role
    obtain ⟨d, hd, he⟩ := List.mem_flatMap.mp he
    rcases m'.pending_of_handedOut w hentry hd he with hstop | hpending
    · obtain ⟨s, hcall⟩ := Registry.Deed.call_of_isStop hstop
      obtain ⟨sessions, hstops⟩ := m'.stops (hcall ▸ Registry.call_of_mem_log hd)
      have hremove : Registry.Call.remove n.session n.attempt ∈ sessions.map Registry.Call.stop :=
        hstops ▸ List.mem_append_right _ (List.mem_singleton_self _)
      obtain ⟨_, _, hcall⟩ := List.mem_map.mp hremove
      cases hcall
    · cases hready.symm.trans hpending

end Moves

/-- What was taken out of the registry is being taken down or was; a negotiation has nothing ready. -/
structure TeardownLedger (b : Broadcast) : Prop where
  releasing : ∀ t n stage d, b.tasks.get? t = some (.negotiation n stage) →
    (Task.negotiation n stage).teardown? = some d → d.entry.phase = .pending
  removed : ∀ d ∈ deeds b.log, ∀ e ∈ d.handedOut, d.isStop ∨ e.phase = .pending
  balance : ∀ role, tally role (Registry.handedOut (deeds b.log) : List Entry) =
    tally role (b.tasks.contents.bind fun task => inHand (some task)) +
      tally role (finished b.log : List Entry)

theorem teardownLedger_empty : TeardownLedger {} where
  releasing _ _ _ _ h := by cases h
  removed _ h := by cases h
  balance _ := rfl

theorem TeardownLedger.step {x : Episode} (hb : x.before.TeardownLedger) (h : x.before.Consistent)
    (hx : x.Occurs) : x.after.TeardownLedger := by
  have ht := hx.taken h
  have m := ht.follows.move
  have hentry := h.hasEntry_before ht.task
  refine ⟨fun t n stage d hleft hd => ?_, fun d hd e he => ?_, fun role => ?_⟩
  · rw [x.get?_after] at hleft
    split at hleft
    · obtain ⟨stage', hwas⟩ := hx.negotiation_before h hleft hd
      have hd' : x.result.task.ongoing?.bind Task.teardown? = some d := by
        rw [← Episode.left, hleft]
        exact hd
      rcases m.teardown_cases hd' with ⟨d₀, hd₀, hsame, _⟩ | ⟨he, _⟩
      · rw [hwas] at hd₀
        rw [← hsame]
        exact hb.releasing x.task n stage' d₀ (ht.task.trans hwas) hd₀
      · obtain ⟨deed, hdeed, he⟩ := List.mem_flatMap.mp he
        rcases m.pending_of_handedOut h.wellFormed hentry hdeed he with hstop | hpending
        · obtain ⟨s, hcall⟩ := Registry.Deed.call_of_isStop hstop
          cases (Episode.calls_name hwas (hcall ▸ Registry.call_of_mem_log hdeed)).1
        · exact hpending
    · exact hb.releasing t n stage d hleft hd
  · rw [x.deeds_after] at hd
    rcases List.mem_append.mp hd with hold | hnew
    · exact hb.removed d hold e he
    · exact m.pending_of_handedOut h.wellFormed hentry hnew he
  · have htasks : (x.after.tasks.contents.bind fun task => inHand (some task)) + inHand x.was =
        (x.before.tasks.contents.bind fun task => inHand (some task)) + inHand x.left := by
      have htaken := bind_take h.tasks_distinct ht.task x.action.reply? x.calls x.result
        fun task => inHand (some task)
      rwa [bind_inHand, bind_inHand] at htaken
    have htallies := congrArg (tally role) htasks
    have hstep := m.tally_eq h.wellFormed hentry h.ready_endpoint role
    have hlog : finished x.after.log = finished x.before.log ++
        finished (takeEvents x.before.coordinator.registry x.task x.was x.action.reply? x.calls x.left) := by
      rw [← finished_append]
      exact congrArg finished (log_take ..)
    have hout : Registry.handedOut (deeds x.after.log) = Registry.handedOut (deeds x.before.log) ++
        Registry.handedOut (x.before.coordinator.registry.log x.calls) := by
      rw [x.deeds_after]
      exact List.flatMap_append
    have hbalance := hb.balance role
    rw [hlog, hout, finished_takeEvents ht.replied, ← Multiset.coe_add, ← Multiset.coe_add, tally_add,
      tally_add]
    rw [tally_add, tally_add] at htallies
    change _ = tally role (inHand x.left) + _ at hstep
    omega

theorem teardownLedger (actions : List Action) : (run {} actions).TeardownLedger :=
  history_induction (P := fun _ b => b.TeardownLedger) teardownLedger_empty
    (fun _ _ hb h hx => hb.step h hx) actions

namespace TeardownLedger
variable {b : Broadcast} (hb : b.TeardownLedger) (role : Role)
include hb

/-- What is ready and taken out was taken out by a stop. -/
theorem tally_stopped : tally role (stopped b.log : List Entry) =
    tally role (Registry.handedOut (deeds b.log) : List Entry) := by
  unfold stopped
  have hremoved := hb.removed
  revert hremoved
  induction deeds b.log with
  | nil => exact fun _ => rfl
  | cons d rest ih =>
    intro hremoved
    obtain ⟨hfirst, hrest⟩ := List.forall_mem_cons.mp hremoved
    have hall : Registry.handedOut (d :: rest) = d.handedOut ++ Registry.handedOut rest := rfl
    rw [hall, ← Multiset.coe_add, tally_add, ← ih hrest]
    cases hstop : d.isStop with
    | true =>
      rw [List.filter_cons_of_pos hstop, ← tally_add, Multiset.coe_add]
      rfl
    | false =>
      have hnone : tally role (d.handedOut : List Entry) = 0 := by
        refine Multiset.countP_eq_zero.mpr fun e he => not_counts_of_pending role ?_
        exact (hfirst e he).resolve_left (by simp [hstop])
      rw [List.filter_cons_of_neg (by simp [hstop]), hnone, Nat.zero_add]

/-- What is ready and in hand is in the hand of a stop. -/
theorem tally_leaving (hd : b.tasks.Distinct) : tally role b.leaving =
    tally role (b.tasks.contents.bind fun task => inHand (some task)) := by
  have hnone : tally role ((b.tasks.contents.filter fun task => ¬ task.isStop).bind fun task =>
      inHand (some task)) = 0 := by
    refine Multiset.countP_eq_zero.mpr fun e he => not_counts_of_pending role ?_
    obtain ⟨task, htask, he⟩ := Multiset.mem_bind.mp he
    obtain ⟨hm, hno⟩ := Multiset.mem_filter.mp htask
    obtain ⟨t, ht⟩ := (Table.mem_contents_iff hd task).mp hm
    obtain ⟨d, hdown, rfl⟩ := List.mem_map.mp (Multiset.mem_coe.mp he)
    have hdown' : task.teardown? = some d := Option.mem_toList.mp hdown
    cases task with
    | negotiation n stage => exact hb.releasing t n stage d ht hdown'
    | stop => exact (hno rfl).elim
    | shutdown stage =>
      cases stage with
      | stopping => exact (hno rfl).elim
      | withdrawing => cases hdown'
    | _ => cases hdown'
  have hsplit := Multiset.filter_add_not (fun task : Task => task.isStop) b.tasks.contents
  rw [← congrArg (Multiset.bind · fun task => inHand (some task)) hsplit, Multiset.add_bind, tally_add,
    hnone]
  rfl

end TeardownLedger

/--
The gauge of a role shows the ready entries of the role in the registry and those that stops took out
and are still taking down, so it is never negative. It stands at the negotiations that were accepted,
less the entries that were ready and taken down, and at the ready entries alone when no task runs. The
other two counters stand at the candidates that were put into the buffer and the releases that the
engine refused.
-/
theorem live_sessions_counted (actions : List Action) (role : Role) :
    let b := run {} actions
    let m := b.coordinator.metrics
    m.gauge role = tally role b.coordinator.registry.entries + tally role b.leaving ∧
    tally role (stopped b.log : List Entry) =
      tally role b.leaving + tally role (finished b.log : List Entry) ∧
    0 ≤ m.gauge role ∧
    m.gauge role = b.coordinator.counted role .accepted - tally role (finished b.log : List Entry) ∧
    ((∀ t, b.tasks.get? t = none) → m.gauge role = tally role b.coordinator.registry.entries) ∧
    m.candidatesBuffered = (deeds b.log).countP Registry.Deed.puts ∧
    m.releaseFailures = b.log.countP Event.refused := by
  intro b m
  have h := consistent actions
  have hb := teardownLedger actions
  have hleaving := hb.tally_leaving role h.tasks_distinct
  have hbalance : tally role (stopped b.log : List Entry) =
      tally role b.leaving + tally role (finished b.log : List Entry) := by
    rw [hleaving, hb.tally_stopped role]
    exact hb.balance role
  have hgauge : m.gauge role = tally role b.coordinator.registry.entries + tally role b.leaving := by
    rw [hleaving]
    exact (gauge_eq actions role).trans (congrArg Int.ofNat (tally_add role _ _))
  have hcounts : m.counts = ({} : Metrics).counts.raise b.log := counts_eq actions
  have haccepted : b.coordinator.counted role .accepted =
      tally role b.coordinator.registry.entries + tally role (stopped b.log : List Entry) := by
    rw [hb.tally_stopped role]
    obtain ⟨calls, hdeeds, hreg⟩ := traced actions
    have hafter := Registry.wellFormed_empty.tally_after role calls
    rw [← hreg, ← hdeeds] at hafter
    refine (congrFun (congrArg Counts.accepted hcounts) role).trans (Eq.trans ?_ hafter.symm)
    rfl
  refine ⟨hgauge, hbalance, by omega, by omega, fun hidle => ?_, ?_, ?_⟩
  · have hnone : b.tasks.contents = 0 := by
      refine Multiset.eq_zero_of_forall_notMem fun task htask => ?_
      obtain ⟨t, ht⟩ := (Table.mem_contents_iff h.tasks_distinct task).mp htask
      cases (hidle t).symm.trans ht
    have hzero : tally role b.leaving = 0 := by
      rw [leaving, hnone]
      rfl
    omega
  · exact (congrArg Counts.buffered hcounts).trans (Nat.zero_add _)
  · exact (congrArg Counts.failed hcounts).trans (Nat.zero_add _)

/-- A presenter sends a candidate early, takes part and is stopped; its port cannot be released. -/
def stopsWithFailure : List Action :=
  [.request (.prepare ⟨1⟩ .presenter "offer"), .request (.submit ⟨1⟩ { line := "early" }), .turn ⟨0⟩,
    .reply ⟨0⟩ (.ok "pipeline"), .reply ⟨0⟩ (.ok "mixer"), .reply ⟨0⟩ (.ok "endpoint"),
    .reply ⟨0⟩ (.ok "port"), .reply ⟨0⟩ (.ok ""), .reply ⟨0⟩ (.ok ""), .reply ⟨0⟩ (.ok ""),
    .reply ⟨0⟩ (.ok "answer"), .reply ⟨0⟩ (.ok ""), .request (.stop ⟨1⟩ false),
    .reply ⟨2⟩ (.error (.unknownObject "port")), .reply ⟨2⟩ (.ok "")]

theorem stop_with_failure_counted :
    let b := run {} stopsWithFailure
    (∀ t, b.tasks.get? t = none) ∧ b.coordinator.counted .presenter .accepted = 1 ∧
      b.coordinator.metrics.gauge .presenter = 0 ∧ b.coordinator.metrics.candidatesBuffered = 1 ∧
      b.coordinator.metrics.releaseFailures = 1 := by
  intro b
  have hidle : ∀ t, b.tasks.get? t = none := Table.get?_of_isEmpty (by decide +kernel)
  obtain ⟨_, _, _, _, hgauge, hbuffered, hfailed⟩ := live_sessions_counted stopsWithFailure .presenter
  refine ⟨hidle, by decide +kernel, ?_, ?_, ?_⟩
  · exact (hgauge hidle).trans (by decide +kernel)
  · exact hbuffered.trans (by decide +kernel)
  · exact hfailed.trans (by decide +kernel)

end Broadcast

end Rostrum
