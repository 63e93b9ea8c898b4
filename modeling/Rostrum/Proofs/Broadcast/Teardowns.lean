import Rostrum.Proofs.Broadcast.Conduct
import Rostrum.Proofs.Broadcast.Release
import Rostrum.Proofs.Registry.Stops

/-!
# Who takes down what

What a task releases belongs to an entry that the registry handed out. A negotiation takes down its own
entry and no other; whatever else takes something down has an entry that took part. So the objects of an
entry that was marked by a stop are left to its negotiation.
-/

namespace Rostrum.Broadcast

def Event.deed? : Event → Option Registry.Deed
  | .called deed => some deed
  | _ => none

/-- What was done to the registry. -/
def deeds (log : List Event) : List Registry.Deed := log.filterMap Event.deed?

/-- A stop came while the negotiation of an attempt was under way. -/
def Marked (b : Broadcast) (a : Attempt) : Prop := Registry.Marked (deeds b.log) a

theorem deeds_takeEvents (r : Registry) (t : TaskId) (before : Option Task) (reply : Option Reply)
    (calls : List Registry.Call) (after : Option Task) :
    deeds (takeEvents r t before reply calls after) = r.log calls := by
  rw [deeds, takeEvents, List.filterMap_append, List.filterMap_append, List.filterMap_map]
  have hissued : (issuedEvents t after).filterMap Event.deed? = [] := by
    rcases issuedEvents_cases t after with ⟨h, _⟩ | ⟨task, _, h⟩ <;> rw [h] <;> rfl
  have hreplied : (repliedEvents t before reply).filterMap Event.deed? = [] := by
    rcases repliedEvents_cases t before reply with ⟨h, _⟩ | ⟨task, reply', _, _, h⟩ <;> rw [h] <;> rfl
  rw [hissued, hreplied, List.append_nil, List.nil_append]
  exact List.filterMap_some ..

theorem deeds_take (b : Broadcast) (t : TaskId) (before : Option Task) (reply : Option Reply)
    (calls : List Registry.Call) (result : StepResult) :
    deeds (b.take t before reply calls result).log =
      deeds b.log ++ b.coordinator.registry.log calls := by
  rw [log_take, deeds, List.filterMap_append]
  exact congrArg (deeds b.log ++ ·) (deeds_takeEvents ..)

theorem Episode.deeds_after (x : Episode) :
    deeds x.after.log = deeds x.before.log ++ x.before.coordinator.registry.log x.calls :=
  deeds_take _ _ _ _ _ _

/-- The log shows all calls that were made to the registry. -/
theorem traced (actions : List Action) :
    ∃ calls, deeds (run {} actions).log = Registry.log {} calls ∧
      (run {} actions).coordinator.registry = ({} : Registry).after calls := by
  refine history_induction (P := fun _ b => ∃ calls, deeds b.log = Registry.log {} calls ∧
    b.coordinator.registry = ({} : Registry).after calls) ⟨[], rfl, rfl⟩ ?_ actions
  rintro _ x ⟨calls, hdeeds, hreg⟩ h hx
  refine ⟨calls ++ x.calls, ?_, ?_⟩
  · rw [x.deeds_after, hdeeds, hreg, Registry.log_append_log]
  · rw [hx.registry_after h, hreg]
    exact List.foldl_append.symm

theorem accounted (actions : List Action) :
    Registry.Accounted (deeds (run {} actions).log) (run {} actions).coordinator.registry := by
  obtain ⟨calls, hdeeds, hreg⟩ := traced actions
  rw [hdeeds, hreg]
  exact Registry.accounted calls

theorem stopped_of_marked {actions : List Action} {a : Attempt} (h : (run {} actions).Marked a) :
    ∀ e ∈ (run {} actions).coordinator.registry.entries, e.attempt = a →
      e.stopped ∧ e.phase = .pending := by
  obtain ⟨calls, hdeeds, hreg⟩ := traced actions
  intro e he ha
  have hs : e.stopped := by
    rw [Marked, hdeeds] at h
    exact (Registry.stopped_of_marked h).2 e (hreg ▸ he) ha
  exact ⟨hs, (consistent actions).wellFormed.stopped_pending e he hs⟩

theorem handedOut_of_marked {actions : List Action} {a : Attempt} (h : (run {} actions).Marked a)
    {e : Entry} (he : e ∈ Registry.handedOut (deeds (run {} actions).log)) (ha : e.attempt = a) :
    e.stopped ∧ e.phase = .pending := by
  obtain ⟨calls, hdeeds, _⟩ := traced actions
  rw [Marked, hdeeds] at h
  rw [hdeeds] at he
  exact Registry.handedOut_of_marked h he ha

/-- What is handed out took part, or it is the entry of a negotiation that gives up. -/
theorem Move.handed_out {r : Registry} {before after : Option Task} {reply : Option Reply}
    {calls : List Registry.Call} (m : Move r before reply calls after) (w : r.WellFormed) {e : Entry}
    (he : e ∈ Registry.handedOut (r.log calls)) :
    (e.phase = .ready ∧ ∀ task ∈ before, task.live? = none) ∨
      ∃ n stage, before = some (.negotiation n stage) ∧ stage.isLive ∧ e.attempt = n.attempt := by
  have hno : ∀ {call : Registry.Call}, ¬ call.takes → e ∉ Registry.handedOut (r.log [call]) := by
    intro call htakes
    rw [Registry.handedOut_log_singleton, Registry.Deed.handedOut_eq_nil htakes]
    exact List.not_mem_nil
  cases m with
  | waits | obtains | goesOn => cases he
  | disposes hlive => exact Or.inl ⟨Registry.ready_of_stops he, hlive⟩
  | @givesUp n stage reply after hlive =>
    rw [NegotiationStage.handedOut_asks, Registry.Deed.handedOut_remove] at he
    have w' := w.after (stage.asks n reply).toList
    refine Or.inr ⟨n, stage, rfl, hlive, ?_⟩
    rcases Registry.remove_cases (r.after (stage.asks n reply).toList) n.session n.attempt with
      ⟨_, hr⟩ | ⟨x, _, ha, hr⟩ | ⟨x, _, hx, hr⟩ <;> rw [hr] at he
    · cases he
    · obtain rfl := List.mem_singleton.mp he
      exact ha
    · obtain rfl := List.mem_singleton.mp he
      exact w'.superseded_key _ _ hx
  | enters | refused | buffers | applies | endpointMade | portMade | applying | drained | completes =>
    exact (hno (by exact Bool.false_ne_true) he).elim

/-- A step that stops a session does nothing else to the registry than to stop sessions. -/
theorem Move.stops {r : Registry} {before after : Option Task} {reply : Option Reply}
    {calls : List Registry.Call} (m : Move r before reply calls after) {s : SessionId}
    (h : .stop s ∈ calls) : ∃ sessions : List SessionId, calls = sessions.map .stop := by
  cases m with
  | disposes => exact ⟨_, rfl⟩
  | waits | obtains | goesOn => cases h
  | givesUp =>
    rcases List.mem_append.mp h with hask | hremove
    · cases (NegotiationStage.asks_attempt? (Option.mem_toList.mp hask)).1
    · cases List.mem_singleton.mp hremove
  | enters | refused | buffers | applies | endpointMade | portMade | applying | drained | completes =>
    cases List.mem_singleton.mp h

/-- What a task takes down. -/
structure TakesDown (b : Broadcast) (task : Task) (d : Teardown) : Prop where
  handedOut : d.entry ∈ Registry.handedOut (deeds b.log)
  named : ∀ id ∈ d.object :: d.rest, id ∈ d.entry.objects
  made : ∀ kind id, d.entry.Holds kind id → (d.entry.attempt, kind, id) ∈ madeFor b.log
  own : ∀ n stage, task = .negotiation n stage → d.entry.attempt = n.attempt
  ready : (∀ n stage, task ≠ .negotiation n stage) → d.entry.phase = .ready

namespace Episode.Occurs
variable {x : Episode} (hx : x.Occurs) (h : x.before.Consistent)
include hx h

/-- A negotiation that takes something down led the way to it. -/
theorem negotiation_before {n : Negotiation} {stage : NegotiationStage} {d : Teardown}
    (hleft : x.left = some (.negotiation n stage)) (hd : (Task.negotiation n stage).teardown? = some d) :
    ∃ stage', x.was = some (.negotiation n stage') := by
  cases hwas : x.was with
  | some task =>
    cases hx.continues h hwas hleft with
    | @negotiation _ stage' => exact ⟨stage', rfl⟩
  | none =>
    cases hx with
    | turn | reply => cases hwas
    | request =>
      cases serve_begins hleft with
      | prepare => cases hd

theorem takesDown (ac : x.before.Accounts)
    (hold : ∀ t task d, x.before.tasks.get? t = some task → task.teardown? = some d →
      x.before.TakesDown task d) {t : TaskId} {task : Task} {d : Teardown}
    (ht : x.after.tasks.get? t = some task) (hd : task.teardown? = some d) :
    x.after.TakesDown task d := by
  have htaken := hx.taken h
  have hmadeFor : madeFor x.before.log ⊆ madeFor x.after.log := madeFor_subset_take
  have hout : Registry.handedOut (deeds x.after.log) = Registry.handedOut (deeds x.before.log) ++
      Registry.handedOut (x.before.coordinator.registry.log x.calls) := by
    rw [x.deeds_after]
    exact List.flatMap_append
  rw [x.get?_after] at ht
  by_cases hne : x.task = t
  · rw [if_pos hne] at ht
    have hd' : x.result.task.ongoing?.bind Task.teardown? = some d := by
      rw [← left, ht]
      exact hd
    rcases htaken.follows.move.teardown_cases hd' with ⟨d₀, hd₀, hentry, hrest⟩ | ⟨he, hobjects⟩
    · -- the task goes on with what it took out before
      obtain ⟨task₀, hwas, hd₀⟩ := Option.bind_eq_some_iff.mp hd₀
      have hdown := hold x.task task₀ d₀ (htaken.task.trans hwas) hd₀
      have hcontinues := hx.continues h hwas ht
      obtain ⟨e, o, rest⟩ := d
      obtain rfl : d₀.entry = e := hentry
      refine ⟨hout ▸ List.mem_append_left _ hdown.handedOut, fun id hid => ?_,
        fun kind id hheld => hmadeFor (hdown.made kind id hheld), fun n stage heq => ?_,
        fun hno => hdown.ready fun n stage heq => ?_⟩
      · exact hdown.named id (List.mem_cons_of_mem _ (hrest ▸ hid))
      · subst heq
        cases hcontinues with
        | negotiation => exact hdown.own n _ rfl
      · subst heq
        cases hcontinues with
        | negotiation => exact hno n _ rfl
    · -- the entry was handed out in this step
      refine ⟨hout ▸ List.mem_append_right _ he, fun id hid => hobjects ▸ hid, ?_, ?_, ?_⟩
      · intro kind id hheld
        have hkind : kind.isMedia := by cases kind <;> first | rfl | cases hheld
        exact (ac.carried_take h htaken.task htaken.follows (Or.inr he) hkind).mp hheld
      · rintro n stage rfl
        obtain ⟨stage', hwas⟩ := hx.negotiation_before h ht hd
        rcases htaken.follows.move.handed_out h.wellFormed he with ⟨_, hno⟩ | ⟨n', _, hwas', _, ha⟩
        · have hnone := hno _ hwas
          cases hlive : stage'.isLive with
          | true => simp [Task.live?, hlive] at hnone
          | false =>
            rw [calls, hwas] at he
            simp [taskCalls, hlive, Registry.log, Registry.handedOut] at he
        · cases hwas.symm.trans hwas'
          exact ha
      · intro hno
        rcases htaken.follows.move.handed_out h.wellFormed he with ⟨hready, _⟩ | ⟨n, _, hwas, _⟩
        · exact hready
        · cases hx.continues h hwas ht with
          | negotiation => exact (hno n _ rfl).elim
  · rw [if_neg hne] at ht
    have hdown := hold t task d ht hd
    exact ⟨hout ▸ List.mem_append_left _ hdown.handedOut, hdown.named,
      fun kind id hheld => hmadeFor (hdown.made kind id hheld), hdown.own, hdown.ready⟩

end Episode.Occurs

theorem takesDown (actions : List Action) : ∀ t task d, (run {} actions).tasks.get? t = some task →
    task.teardown? = some d → (run {} actions).TakesDown task d := by
  refine (history_induction (P := fun _ b => b.Accounts ∧ ∀ t task d, b.tasks.get? t = some task →
    task.teardown? = some d → b.TakesDown task d) ⟨accounts_empty, fun _ _ _ h => (by cases h)⟩ ?_
    actions).2
  rintro _ x ⟨ac, hold⟩ h hx
  have htaken := hx.taken h
  exact ⟨ac.take h htaken.task htaken.follows htaken.fresh,
    fun t task d ht hd => hx.takesDown h ac hold ht hd⟩

/-- A task releases what was made for the attempt that it takes down. -/
theorem TakesDown.attempt_eq {b : Broadcast} (ac : b.Accounts) {task : Task} {d : Teardown}
    (hdown : b.TakesDown task d) {id : ObjectId} (hid : id ∈ d.object :: d.rest) {a : Attempt}
    {kind : ObjectKind} (hm : (a, kind, id) ∈ madeFor b.log) : d.entry.attempt = a := by
  obtain ⟨kind', _, hheld⟩ := holds_of_mem (hdown.named id hid)
  exact (ac.madeFor_eq (hdown.made kind' id hheld) hm).1

theorem Consistent.of_waiting {b : Broadcast} (h : b.Consistent) {id : ObjectId} (hwaits : id ∈ b.waiting) :
    ∃ t task d, b.tasks.get? t = some task ∧ task.teardown? = some d ∧ id ∈ d.rest := by
  obtain ⟨task, ht, hrest⟩ := Multiset.mem_bind.mp hwaits
  obtain ⟨t, ht⟩ := (Table.mem_contents_iff h.tasks_distinct task).mp ht
  cases hd : task.teardown? with
  | none => simp [restOf, hd] at hrest
  | some d => exact ⟨t, task, d, ht, hd, by simpa [restOf, hd] using hrest⟩

/-- What was made for a marked attempt waits for its release in its own negotiation only. -/
theorem leads_of_waiting {actions : List Action} {a : Attempt} (hmarked : (run {} actions).Marked a)
    {kind : ObjectKind} {id : ObjectId} (hm : (a, kind, id) ∈ madeFor (run {} actions).log)
    (hwaits : id ∈ (run {} actions).waiting) :
    ∃ t n stage, (run {} actions).tasks.get? t = some (.negotiation n stage) ∧ n.attempt = a := by
  obtain ⟨t, task, d, ht, hd, hid⟩ := (consistent actions).of_waiting hwaits
  have hdown := takesDown actions t task d ht hd
  have ha := hdown.attempt_eq (accounts actions) (List.mem_cons_of_mem _ hid) hm
  by_cases hn : ∃ n stage, task = .negotiation n stage
  · obtain ⟨n, stage, rfl⟩ := hn
    exact ⟨t, n, stage, ht, (hdown.own n stage rfl).symm.trans ha⟩
  · have hready := hdown.ready fun n stage heq => hn ⟨n, stage, heq⟩
    have hpending := (handedOut_of_marked hmarked hdown.handedOut ha).2
    cases hready.symm.trans hpending

end Rostrum.Broadcast
