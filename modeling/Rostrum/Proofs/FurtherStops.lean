import Rostrum.Proofs.Broadcast.MixLock
import Rostrum.Proofs.Broadcast.Renumbered
import Rostrum.Proofs.Broadcast.Teardowns
import Rostrum.Proofs.Message.ReadBack
import Rostrum.Proofs.Registry.Quiet
import Rostrum.Proofs.Venue

/-!
# Further stops

A session that was stopped is stopped again: by its client, when the connection ends, or by both at once,
while the first stop may still wait for the engine. A run with such stops is the run without them, in which
the tasks that begin later have smaller numbers.
-/

namespace Rostrum

namespace Broadcast

/-- The session was stopped, and since then nothing of it was brought into the registry. -/
def Rests (b : Broadcast) (s : SessionId) : Prop :=
  ∃ earlier later, (deeds b.log).map Registry.Deed.call = earlier ++ .stop s :: later ∧
    ∀ call ∈ later, call.brings s = false

theorem quiet_of_rests {actions : List Action} {s : SessionId} (h : (run {} actions).Rests s) :
    (run {} actions).coordinator.registry.Quiet s := by
  obtain ⟨earlier, later, hcalls, hno⟩ := h
  obtain ⟨calls, hdeeds, hreg⟩ := traced actions
  rw [hdeeds, Registry.log_calls] at hcalls
  rw [hreg, hcalls]
  exact Registry.quiet_since_stop earlier later hno

/-- Right after a stop the session rests. -/
theorem rests_of_stop (b : Broadcast) (s : SessionId) (leaving : Bool) :
    (b.step (.request (.stop s leaving))).Rests s := by
  have hoccurs : Episode.Occurs ⟨b, .request (.stop s leaving), ⟨b.nextTask⟩, none,
      serve b.coordinator ⟨b.nextTask⟩ (.stop s leaving)⟩ := .request fun order hq => by cases hq
  rw [step_of_episode? hoccurs.episode?]
  refine ⟨(deeds b.log).map Registry.Deed.call, [], ?_, nofun⟩
  rw [Episode.deeds_after, List.map_append, Registry.log_calls]
  rfl

theorem serve_stop_of_quiet {c : Coordinator} {s : SessionId} (h : c.registry.Quiet s)
    (w : c.registry.WellFormed) (t : TaskId) : serve c t (.stop s false) = ⟨c, [], .done .done⟩ := by
  obtain ⟨hsame, hno⟩ := h.stop w
  have hstop : c.stop s = (.done (), c) := by
    unfold Coordinator.stop
    cases hs : c.registry.stop s with
    | mk action registry =>
      rw [hs] at hsame hno
      cases action with
      | teardown e => exact absurd rfl (hno e)
      | marked | nothing =>
        obtain rfl : registry = c.registry := hsame
        rfl
  rw [serve, hstop]
  rfl

/-- The lock is with tasks that have begun. -/
theorem renumber_coordinator (actions : List Action) :
    (run {} actions).coordinator.renumber (behind (run {} actions).nextTask) =
      (run {} actions).coordinator := by
  have hmix : (run {} actions).coordinator.mix.renumber (behind (run {} actions).nextTask) =
      (run {} actions).coordinator.mix := by
    apply MixCell.renumber_eq_self
    intro t ht
    have huse := ((locked actions).mem_queue t).mp ht
    obtain ⟨use, hsome⟩ := Option.isSome_iff_exists.mp huse
    obtain ⟨task, htask, _⟩ := Option.bind_eq_some_iff.mp hsome
    exact behind_of_lt ((consistent actions).task_lt t task htask)
  unfold Coordinator.renumber
  rw [hmix]

theorem beside_of_stop {actions : List Action} {s : SessionId} (h : (run {} actions).Rests s) :
    ∃ x, (run {} actions).episode? (.request (.stop s false)) = some x ∧
      x.result.notices = [] ∧ x.result.task = .done .done ∧
      Beside (run {} actions).nextTask (run {} actions) x.after := by
  have hc := consistent actions
  have hserve := serve_stop_of_quiet (quiet_of_rests h) hc.wellFormed ⟨(run {} actions).nextTask⟩
  have hoccurs : Episode.Occurs ⟨run {} actions, .request (.stop s false),
      ⟨(run {} actions).nextTask⟩, none, serve (run {} actions).coordinator
        ⟨(run {} actions).nextTask⟩ (.stop s false)⟩ := .request fun order hq => by cases hq
  have hrenumber := renumber_coordinator actions
  refine ⟨_, hoccurs.episode?, ?_, ?_, ?_⟩
  · rw [hserve]
  · rw [hserve]
  · generalize run {} actions = b at *
    unfold Episode.after
    rw [hserve]
    constructor
    · exact Nat.le_refl _
    · exact Nat.max_eq_right (Nat.le_succ _)
    · exact hrenumber.symm
    · intro t
      rw [get?_take, if_neg (behind_ne _ t)]
      by_cases ht : t.number < b.nextTask
      · rw [behind_of_lt ht]
      · have hnone : ∀ t : TaskId, ¬ t.number < b.nextTask → b.tasks.get? t = none := by
          intro t ht
          rw [Option.eq_none_iff_forall_ne_some]
          intro task htask
          exact ht (hc.task_lt t task htask)
        rw [hnone t ht, hnone]
        rw [number_behind, if_neg ht]
        omega
    · rw [dealings_take]
      exact (List.append_nil _).trans (List.append_nil _)

end Broadcast

namespace Venue
open Broadcast (Action Episode behind dealings)

def Op.renumber (f : TaskId → TaskId) : Op → Op
  | .act a => .act (a.renumber f)
  | .text s content => .text s content
  | .queue change => .queue change

/-- The same venue with one more task, which has ended. -/
structure Beside (n : Nat) (v v' : Venue) : Prop where
  broadcast : Broadcast.Beside n v.broadcast v'.broadcast
  outbound : v'.outbound = v.outbound

namespace Beside
variable {n limit : Nat} {v v' : Venue} (h : Beside n v v')
include h

theorem act (a : Action) : Beside n (v.act a) (v'.act (a.renumber (behind n))) := by
  have hepisode := h.broadcast.episode? a
  unfold Venue.act
  rw [hepisode]
  cases hx : v.broadcast.episode? a with
  | none => exact h
  | some x =>
    obtain ⟨_, _, hbefore, _⟩ := Broadcast.step?_of_episode? hx
    have hbeside : Broadcast.Beside n x.before v'.broadcast := hbefore ▸ h.broadcast
    constructor
    · exact hbeside.after
    · exact congrArg (fun o : Outbound => o.follow x.result) h.outbound

theorem perform (op : Op) :
    Beside n (v.perform limit op) (v'.perform limit (op.renumber (behind n))) := by
  cases op with
  | act a => exact h.act a
  | text s content =>
    unfold Op.renumber Venue.perform
    dsimp only
    cases ClientMessage.decode limit content with
    | ok m => exact h.act (.request (m.request s))
    | error =>
      have hsent := congrArg (fun o => o.deliver [⟨s, .error (unreadable content)⟩]) h.outbound
      exact ⟨h.broadcast, hsent⟩
  | queue change => exact ⟨h.broadcast, congrArg (fun o => (o.perform change).2) h.outbound⟩

theorem run (ops : List Op) :
    Beside n (v.run limit ops) (v'.run limit (ops.map (Op.renumber (behind n)))) := by
  induction ops generalizing v v' with
  | nil => exact h
  | cons op rest ih => exact ih (h.perform op)

end Beside

/-- What clients and the engine get to see, and what the registry and the metrics say. -/
structure Agrees (v v' : Venue) : Prop where
  outbound : v'.outbound = v.outbound
  dealings : dealings v'.broadcast.log = dealings v.broadcast.log
  registry : v'.broadcast.coordinator.registry = v.broadcast.coordinator.registry
  metrics : v'.broadcast.coordinator.metrics = v.broadcast.coordinator.metrics
  published : v'.broadcast.coordinator.mix.published = v.broadcast.coordinator.mix.published

theorem Agrees.refl (v : Venue) : Agrees v v := ⟨rfl, rfl, rfl, rfl, rfl⟩

theorem Agrees.trans {v v' v'' : Venue} (h : Agrees v v') (h' : Agrees v' v'') : Agrees v v'' :=
  ⟨h'.outbound.trans h.outbound, h'.dealings.trans h.dealings, h'.registry.trans h.registry,
    h'.metrics.trans h.metrics, h'.published.trans h.published⟩

theorem Beside.agrees {n : Nat} {v v' : Venue} (h : Beside n v v') : Agrees v v' := by
  have hcoordinator := h.broadcast.coordinator
  refine ⟨h.outbound, h.broadcast.dealings, ?_, ?_, ?_⟩ <;> rw [hcoordinator] <;> rfl

section Runs
variable (limit size : Nat)

/-- The second list of operations is the first one with further stops, of sessions that were stopped
already. Such a stop is a task, so those that begin later have a number that is one higher. -/
inductive Padded : List Op → List Op → Prop where
  | same (ops : List Op) : Padded ops ops
  | stop {ops earlier later : List Op} {s : SessionId} {op : Op} : Padded ops (earlier ++ later) →
      ((opened size).run limit earlier).broadcast.Rests s →
      op.action? limit = some (.request (.stop s false)) →
      Padded ops (earlier ++ op :: later.map
        (Op.renumber (behind ((opened size).run limit earlier).broadcast.nextTask)))

variable {limit size}

theorem perform_of_action? (v : Venue) {op : Op} {a : Action} (h : op.action? limit = some a) :
    v.perform limit op = v.act a := by
  rcases perform_cases limit v op with ⟨a', ha, hperform⟩ | ⟨_, _, _, hnone, _⟩ | ⟨change, rfl, _⟩
  · cases ha.symm.trans h
    exact hperform
  · cases hnone.symm.trans h
  · cases h

theorem rests_of_stop (earlier : List Op) {s : SessionId} {leaving : Bool} {op : Op}
    (hop : op.action? limit = some (.request (.stop s leaving))) :
    ((opened size).run limit (earlier ++ [op])).broadcast.Rests s := by
  rw [run_append]
  change (((opened size).run limit earlier).perform limit op).broadcast.Rests s
  rw [perform_of_action? _ hop, broadcast_act]
  exact Broadcast.rests_of_stop _ s leaving

theorem beside_of_stop {earlier : List Op} {s : SessionId} {op : Op}
    (hrests : ((opened size).run limit earlier).broadcast.Rests s)
    (hop : op.action? limit = some (.request (.stop s false))) :
    Beside ((opened size).run limit earlier).broadcast.nextTask ((opened size).run limit earlier)
      (((opened size).run limit earlier).perform limit op) := by
  have hreached : ((opened size).run limit earlier).broadcast =
      Broadcast.run {} (earlier.filterMap (Op.action? limit)) := broadcast_run earlier
  rw [hreached] at hrests
  obtain ⟨x, hx, hnotices, htask, hbeside⟩ := Broadcast.beside_of_stop hrests
  rw [perform_of_action? _ hop, Venue.act, hreached, hx]
  refine ⟨hreached ▸ hbeside, ?_⟩
  dsimp only
  rw [Outbound.follow, htask, hnotices]
  rfl

theorem Padded.agrees {ops ops' : List Op} (h : Padded limit size ops ops') :
    Agrees ((opened size).run limit ops) ((opened size).run limit ops') := by
  induction h with
  | same => exact .refl _
  | @stop earlier later s op _ hrests hop ih =>
    refine ih.trans ?_
    rw [run_append, run_append]
    exact ((beside_of_stop hrests hop).run later).agrees

/-- Stopping a session twice is the same as stopping it once, and stopping it again later, as often as one
likes and also while the first stop still waits for the engine, changes nothing for the rest of the run. -/
theorem further_stops_change_nothing {ops ops' : List Op} (h : Padded limit size ops ops') :
    (∀ (calls : List Registry.Call) (s : SessionId),
      let once := ((({} : Registry).after calls).stop s).2
      (once.stop s).2 = once ∧ (∀ e, (once.stop s).1 ≠ .teardown e) ∧
        once.buffer.hasQueue s = false ∧ once.activeRole? s = none) ∧
    Agrees ((opened size).run limit ops) ((opened size).run limit ops') := by
  constructor
  · intro calls s once
    have w := Registry.wellFormed_empty.after calls
    have hquiet : once.Quiet s := w.quiet_of_stop s
    obtain ⟨hsame, hno⟩ := hquiet.stop (w.next (.stop s))
    exact ⟨hsame, hno, hquiet.hasQueue, hquiet.activeRole?⟩
  · exact h.agrees

/-- A presenter stops, and stops again twice, before the engine has released its port. -/
theorem further_stops_during_release :
    let earlier : List Op := [.queue (.register ⟨1⟩), .queue (.register ⟨2⟩),
      .act (.request (.prepare ⟨1⟩ .presenter "offer")), .act (.turn ⟨0⟩),
      .act (.reply ⟨0⟩ (.ok "pipeline")), .act (.reply ⟨0⟩ (.ok "mixer")),
      .act (.reply ⟨0⟩ (.ok "endpoint")), .act (.reply ⟨0⟩ (.ok "port")),
      .act (.reply ⟨0⟩ (.ok "")), .act (.reply ⟨0⟩ (.ok "")), .act (.reply ⟨0⟩ (.ok "answer")),
      .act (.reply ⟨0⟩ (.ok ""))]
    let stop : Op := .act (.request (.stop ⟨1⟩ false))
    let said : Op := .text ⟨1⟩ ClientMessage.stop.text
    let later (t : TaskId) : List Op := [.act (.request (.prepare ⟨2⟩ .viewer "offer")),
      .act (.reply ⟨1⟩ (.ok "")), .act (.turn t), .act (.reply ⟨1⟩ (.ok ""))]
    let v := (opened 4).run 4096 (earlier ++ stop :: later ⟨2⟩)
    (((opened 4).run 4096 (earlier ++ [stop])).broadcast.tasks.get? ⟨1⟩).isSome ∧
      (v.broadcast.tasks.get? ⟨2⟩).isSome ∧
      Agrees v ((opened 4).run 4096 (earlier ++ stop :: stop :: said :: later ⟨4⟩)) := by
  intro earlier stop said later v
  have hread : said.action? 4096 = some (.request (.stop ⟨1⟩ false)) := by
    have hdecode : ClientMessage.decode 4096 ClientMessage.stop.text = .ok .stop :=
      ClientMessage.decode_text trivial (by decide) (by decide)
    simp [said, Op.action?, Broadcast.Input.action?, hdecode, Except.toOption, ClientMessage.request]
  have hstop : stop.action? 4096 = some (.request (.stop ⟨1⟩ false)) := rfl
  have hfirst : Padded 4096 4 (earlier ++ stop :: later ⟨2⟩)
      (earlier ++ stop :: stop :: later ⟨3⟩) := by
    have hnext : ((opened 4).run 4096 (earlier ++ [stop])).broadcast.nextTask = 2 := by
      decide +kernel
    have h : Padded 4096 4 (earlier ++ [stop] ++ later ⟨2⟩) _ :=
      .stop (.same _) (rests_of_stop earlier hstop) hstop
    rw [hnext, List.append_assoc, List.append_assoc] at h
    exact h
  have hsecond : Padded 4096 4 (earlier ++ stop :: later ⟨2⟩)
      (earlier ++ stop :: stop :: said :: later ⟨4⟩) := by
    have hnext : ((opened 4).run 4096 (earlier ++ [stop, stop])).broadcast.nextTask = 3 := by
      decide +kernel
    have hrests : ((opened 4).run 4096 (earlier ++ [stop] ++ [stop])).broadcast.Rests ⟨1⟩ :=
      rests_of_stop (earlier ++ [stop]) hstop
    rw [List.append_assoc] at hrests
    have hsplit : earlier ++ stop :: stop :: later ⟨3⟩ = earlier ++ [stop, stop] ++ later ⟨3⟩ :=
      (List.append_assoc earlier [stop, stop] (later ⟨3⟩)).symm
    rw [hsplit] at hfirst
    have h := hfirst.stop hrests hread
    rw [hnext, List.append_assoc] at h
    exact h
  exact ⟨by decide +kernel, by decide +kernel, (further_stops_change_nothing hsecond).2⟩

end Runs
end Venue
end Rostrum
