import Rostrum.Rehearsal.Basic
import Rostrum.Proofs.Broadcast.Departure
import Rostrum.Proofs.Outbound.Reading

/-!
# A session that leaves

A venue is the coordinator with its tasks, together with the queues of the clients. What a step says goes
into the queues at once, and the client of a session that was stopped to leave loses its queue when the
stop has come to its end. Queues overflow, are read and are dropped at any time in between.

Main statement: when nothing has come from a session since it was stopped to leave, and nobody works for
it any more, nothing is left of it. And no step that was taken for it has changed what belongs to another
session. The work of a shutdown that has taken an entry of the session counts as work for the session.
At the end of the module: a venue and a hub that show the same do so after every step.
-/

namespace Rostrum

namespace Outbound

def deliver (o : Outbound) (notices : List Notice) : Outbound :=
  notices.foldl (fun o notice => (o.send notice.session notice.message).2) o

/-- The queue of a session is the same, with all that waits in it. -/
structure SameFor (s : SessionId) (o o' : Outbound) : Prop where
  client : o'.clients.get? s = o.clients.get? s
  box : ∀ q, o.clients.get? s = some q → o'.boxes.get? q = o.boxes.get? q

namespace SameFor
variable {s : SessionId} {o o' o'' : Outbound}

theorem refl (s : SessionId) (o : Outbound) : SameFor s o o := ⟨rfl, fun _ _ => rfl⟩

theorem trans (h : SameFor s o o') (h' : SameFor s o' o'') : SameFor s o o'' := by
  constructor
  · exact h'.client.trans h.client
  · intro q hq
    exact (h'.box q (h.client.trans hq)).trans (h.box q hq)

end SameFor

section Others
variable {o : Outbound} {s s' : SessionId} (hne : s ≠ s')
include hne

theorem sameFor_send (w : o.Sound) (m : ServerMessage) : SameFor s' o (o.send s m).2 := by
  constructor
  · exact clients_send hne m
  · intro q hq
    apply boxes_send
    intro hown
    exact hne (w.one_client s s' q hown hq)

theorem sameFor_remove : SameFor s' o (o.remove s) :=
  ⟨Table.get?_erase_of_ne _ hne, fun _ _ => rfl⟩

end Others

theorem Sound.deliver {o : Outbound} (w : o.Sound) (notices : List Notice) :
    (o.deliver notices).Sound := by
  induction notices generalizing o with
  | nil => exact w
  | cons notice rest ih => exact ih (w.send notice.session notice.message)

theorem sameFor_deliver {o : Outbound} (w : o.Sound) {s s' : SessionId} (hne : s ≠ s')
    {notices : List Notice} (hnotices : ∀ notice ∈ notices, notice.session = s) :
    SameFor s' o (o.deliver notices) := by
  induction notices generalizing o with
  | nil => exact .refl s' o
  | cons notice rest ih =>
    have hs : notice.session ≠ s' := by
      rw [hnotices notice List.mem_cons_self]
      exact hne
    have hrest := ih (w.send notice.session notice.message)
      fun notice' hmem => hnotices notice' (List.mem_cons_of_mem _ hmem)
    exact (sameFor_send hs w notice.message).trans hrest

theorem unregistered_deliver {o : Outbound} {s : SessionId} (h : o.clients.get? s = none)
    (notices : List Notice) : (o.deliver notices).clients.get? s = none := by
  induction notices generalizing o with
  | nil => exact h
  | cons notice rest ih =>
    apply ih
    rcases clients_send_cases notice.session notice.message s with hsame | hnone
    · exact hsame.trans h
    · exact hnone

theorem unregistered_remove {o : Outbound} {s : SessionId} (h : o.clients.get? s = none)
    (s' : SessionId) : (o.remove s').clients.get? s = none := by
  rw [remove, Table.get?_erase, h]
  exact ite_self none

/-- What a step says is delivered, and then its client may leave. -/
def follow (o : Outbound) (result : StepResult) : Outbound :=
  match result.task with
  | .done (.left s) => (o.deliver result.notices).remove s
  | _ => o.deliver result.notices

section Follow
variable (o : Outbound) (result : StepResult)

theorem follow_cases : (∃ s, result.task = .done (.left s) ∧
      o.follow result = (o.deliver result.notices).remove s) ∨
    ((∀ s, result.task ≠ .done (.left s)) ∧ o.follow result = o.deliver result.notices) := by
  unfold follow
  split
  · rename_i s hleft
    exact .inl ⟨s, hleft, rfl⟩
  · rename_i hno
    exact .inr ⟨hno, rfl⟩

variable {o}

theorem Sound.follow (w : o.Sound) : (o.follow result).Sound := by
  rcases follow_cases o result with ⟨s, _, hfollow⟩ | ⟨_, hfollow⟩
  · rw [hfollow]
    exact (w.deliver _).remove s
  · rw [hfollow]
    exact w.deliver _

theorem unregistered_follow {s : SessionId} (h : o.clients.get? s = none) :
    (o.follow result).clients.get? s = none := by
  have hdelivered := unregistered_deliver h result.notices
  rcases follow_cases o result with ⟨s', _, hfollow⟩ | ⟨_, hfollow⟩
  · rw [hfollow]
    exact unregistered_remove hdelivered s'
  · rw [hfollow]
    exact hdelivered

theorem unregistered_of_left {s : SessionId} (hleft : result.task = .done (.left s)) :
    (o.follow result).clients.get? s = none := by
  unfold follow
  rw [hleft]
  exact Table.get?_erase_self _ _

end Follow

end Outbound

/-- The coordinator with its tasks, and the queues of the clients. -/
structure Venue where
  broadcast : Broadcast := {}
  outbound : Outbound

namespace Venue
open Broadcast (Action Episode)

/-- What happens next. -/
inductive Op where
  | act (action : Action)
  /-- A client sends a text. -/
  | text (session : SessionId) (content : String)
  /-- Something happens to the queues that is not a step of the coordinator. -/
  | queue (op : Outbound.Op)

variable (limit : Nat) (v : Venue)

def act (a : Action) : Venue :=
  match v.broadcast.episode? a with
  | some x => { broadcast := x.after, outbound := v.outbound.follow x.result }
  | none => v

def perform : Op → Venue
  | .act a => v.act a
  | .text s content =>
    match ClientMessage.decode limit content with
    | .ok m => v.act (.request (m.request s))
    | .error _ => { v with outbound := v.outbound.deliver [⟨s, .error (unreadable content)⟩] }
  | .queue op => { v with outbound := (v.outbound.perform op).2 }

def run (ops : List Op) : Venue := ops.foldl (perform limit) v

/-- Nobody is there yet. A queue holds so many messages. -/
def opened (size : Nat) : Venue := { outbound := .ofSize size }

namespace Op

/-- The action of the coordinator that an operation is. -/
def action? : Op → Option Action
  | .act a => some a
  | .text s content => (Broadcast.Input.text content).action? limit s
  | .queue _ => none

/-- Whether an operation comes from the client of a session. -/
def comesFrom (s : SessionId) : Op → Bool
  | .act a => (a.message? s).isSome
  | .text s' _ => s' = s
  | .queue op => op.registers s

/-- The session that an operation is done for: its message, or a step of a task that works for it. -/
def session? : Op → Option SessionId
  | .act (.request q) => q.session?
  | .act (.turn t) => (v.broadcast.tasks.get? t).bind Task.session?
  | .act (.reply t _) => (v.broadcast.tasks.get? t).bind Task.session?
  | .text s _ => some s
  | .queue _ => none

end Op

theorem act_cases (a : Action) :
    (∃ x, v.broadcast.episode? a = some x ∧
      v.act a = { broadcast := x.after, outbound := v.outbound.follow x.result }) ∨
    (v.broadcast.episode? a = none ∧ v.act a = v) := by
  unfold act
  cases h : v.broadcast.episode? a with
  | some x => exact .inl ⟨x, rfl, rfl⟩
  | none => exact .inr ⟨rfl, rfl⟩

section Texts
variable {s : SessionId} {content : String}

theorem perform_of_read {m : ClientMessage} (h : ClientMessage.decode limit content = .ok m) :
    v.perform limit (.text s content) = v.act (.request (m.request s)) := by
  simp [perform, h]

theorem perform_of_unreadable {fault : DecodeFault}
    (h : ClientMessage.decode limit content = .error fault) :
    v.perform limit (.text s content) =
      { v with outbound := v.outbound.deliver [⟨s, .error (unreadable content)⟩] } := by
  simp [perform, h]

end Texts

/-- An operation is an action of the coordinator, or it touches nothing but the queues. -/
theorem perform_cases (op : Op) :
    (∃ a, op.action? limit = some a ∧ v.perform limit op = v.act a) ∨
    (∃ s content, op = .text s content ∧ op.action? limit = none ∧ v.perform limit op =
      { v with outbound := v.outbound.deliver [⟨s, .error (unreadable content)⟩] }) ∨
    ∃ change, op = .queue change ∧
      v.perform limit op = { v with outbound := (v.outbound.perform change).2 } := by
  cases op with
  | act a => exact .inl ⟨a, rfl, rfl⟩
  | text s content =>
    cases h : ClientMessage.decode limit content with
    | ok m =>
      refine .inl ⟨.request (m.request s), ?_, perform_of_read limit v h⟩
      simp [Op.action?, Broadcast.Input.action?, h, Except.toOption]
    | error =>
      refine .inr (.inl ⟨s, content, rfl, ?_, perform_of_unreadable limit v h⟩)
      simp [Op.action?, Broadcast.Input.action?, h, Except.toOption]
  | queue change => exact .inr (.inr ⟨change, rfl, rfl⟩)

variable {limit v}

theorem broadcast_act (a : Action) : (v.act a).broadcast = v.broadcast.step a := by
  rcases act_cases v a with ⟨x, hx, hact⟩ | ⟨hnone, hact⟩
  · rw [hact, Broadcast.step_of_episode? hx]
  · rw [hact, Broadcast.step_of_no_episode hnone]

theorem broadcast_perform (op : Op) :
    (v.perform limit op).broadcast = v.broadcast.run (op.action? limit).toList := by
  rcases perform_cases limit v op with
    ⟨a, ha, hperform⟩ | ⟨s, content, _, hnone, hperform⟩ | ⟨change, rfl, hperform⟩
  · rw [hperform, ha]
    exact broadcast_act a
  · rw [hperform, hnone]
    rfl
  · rw [hperform]
    rfl

theorem broadcast_run (ops : List Op) :
    (v.run limit ops).broadcast = v.broadcast.run (ops.filterMap (Op.action? limit)) := by
  induction ops generalizing v with
  | nil => rfl
  | cons op rest ih =>
    change ((v.perform limit op).run limit rest).broadcast = _
    rw [ih, broadcast_perform, ← Broadcast.run_append_run]
    cases haction : op.action? limit with
    | none =>
      rw [List.filterMap_cons_none haction]
      rfl
    | some a =>
      rw [List.filterMap_cons_some haction]
      rfl

theorem sound_act (w : v.outbound.Sound) (a : Action) : (v.act a).outbound.Sound := by
  rcases act_cases v a with ⟨x, _, hact⟩ | ⟨_, hact⟩
  · rw [hact]
    exact w.follow x.result
  · rwa [hact]

theorem sound_perform (w : v.outbound.Sound) (op : Op) : (v.perform limit op).outbound.Sound := by
  rcases perform_cases limit v op with
    ⟨a, _, hperform⟩ | ⟨s, content, _, _, hperform⟩ | ⟨change, _, hperform⟩
  · rw [hperform]
    exact sound_act w a
  · rw [hperform]
    exact w.deliver _
  · rw [hperform]
    exact w.perform change

theorem sound_run (w : v.outbound.Sound) (ops : List Op) : (v.run limit ops).outbound.Sound := by
  induction ops generalizing v with
  | nil => exact w
  | cons op rest ih => exact ih (sound_perform w op)

theorem run_append (ops more : List Op) : v.run limit (ops ++ more) = (v.run limit ops).run limit more :=
  List.foldl_append

/-! ## What an operation leaves to other sessions -/

section Sessions
variable {s : SessionId} {a : Action} {op : Op}

theorem session?_of_action? (ha : op.action? limit = some a) (hs : op.session? v = some s) :
    (Op.act a).session? v = some s := by
  cases op with
  | act a' =>
    cases ha
    exact hs
  | text s' content =>
    cases hs
    obtain ⟨m, _, rfl⟩ := Option.map_eq_some_iff.mp ha
    cases m <;> rfl
  | queue => cases ha

theorem session?_of_episode? {x : Episode} (hx : v.broadcast.episode? a = some x) :
    x.session? = (Op.act a).session? v := by
  unfold Broadcast.episode? at hx
  split at hx
  · cases a with
    | request q =>
      cases hx
      rfl
    | turn t =>
      obtain ⟨task, ht, rfl⟩ := Option.map_eq_some_iff.mp hx
      exact (congrArg (fun found => found.bind Task.session?) ht).symm
    | reply t reply =>
      obtain ⟨task, ht, rfl⟩ := Option.map_eq_some_iff.mp hx
      exact (congrArg (fun found => found.bind Task.session?) ht).symm
  · cases hx

theorem message?_of_action? (ha : op.action? limit = some a) (hop : op.comesFrom s = false) :
    a.message? s = none := by
  cases op with
  | act a' =>
    cases ha
    exact Option.not_isSome_iff_eq_none.mp (by simpa [Op.comesFrom] using hop)
  | text s' content =>
    obtain ⟨m, _, rfl⟩ := Option.map_eq_some_iff.mp ha
    have hne : s' ≠ s := by simpa [Op.comesFrom] using hop
    cases m <;> simp [ClientMessage.request, Action.message?, hne]
  | queue => cases ha

end Sessions

/-- What belongs to a session is the same. -/
structure SameFor (s : SessionId) (v v' : Venue) : Prop where
  registry : Registry.SameFor s v.broadcast.coordinator.registry v'.broadcast.coordinator.registry
  superseded : ∀ a, v'.broadcast.Prepared s a →
    v'.broadcast.coordinator.registry.superseded.get? a =
      v.broadcast.coordinator.registry.superseded.get? a
  outbound : v.outbound.SameFor s v'.outbound

theorem sameFor_act {actions : List Action} (hbroadcast : v.broadcast = Broadcast.run {} actions)
    (w : v.outbound.Sound) {a : Action} {s s' : SessionId} (hs : (Op.act a).session? v = some s)
    (hne : s ≠ s') : SameFor s' v (v.act a) := by
  have h : v.broadcast.Consistent := hbroadcast ▸ Broadcast.consistent actions
  have hp : v.broadcast.Subscribed := hbroadcast ▸ Broadcast.subscribed actions
  rcases act_cases v a with ⟨x, hx, hact⟩ | ⟨_, hact⟩
  · obtain ⟨_, hoccurs, hbefore, ha⟩ := Broadcast.step?_of_episode? hx
    rw [← session?_of_episode? hx] at hs
    have hac := Broadcast.accounted actions
    have hac' := Broadcast.accounted (actions ++ [a])
    rw [← hbroadcast, ← hbefore] at hac
    rw [Broadcast.run_append, ← hbroadcast, Broadcast.step_of_episode? hx] at hac'
    rw [hact]
    rw [← hbefore] at h hp
    refine ⟨?_, ?_, ?_⟩
    · have hsame := hoccurs.sameFor_others h hp hs hne
      rwa [hbefore] at hsame
    · intro a' hprepared
      have hsame := hoccurs.superseded_others h hp hs hne hac hac' hprepared
      rwa [hbefore] at hsame
    · have hdelivered := Outbound.sameFor_deliver w hne
        fun notice hnotice => hoccurs.session_of_notices h hs hnotice
      rcases Outbound.follow_cases v.outbound x.result with ⟨s'', hleft, hfollow⟩ | ⟨_, hfollow⟩
      · have hown : s'' = s := Option.some.inj ((hoccurs.session_of_left h hleft).symm.trans hs)
        rw [hfollow, hown]
        exact hdelivered.trans (Outbound.sameFor_remove hne)
      · rw [hfollow]
        exact hdelivered
  · rw [hact]
    exact ⟨.refl s' _, fun _ _ => rfl, .refl s' _⟩

theorem sameFor_perform {actions : List Action} (hbroadcast : v.broadcast = Broadcast.run {} actions)
    (w : v.outbound.Sound) {op : Op} {s s' : SessionId} (hs : op.session? v = some s) (hne : s ≠ s') :
    SameFor s' v (v.perform limit op) := by
  rcases perform_cases limit v op with
    ⟨a, ha, hperform⟩ | ⟨s'', content, rfl, _, hperform⟩ | ⟨change, rfl, _⟩
  · rw [hperform]
    exact sameFor_act hbroadcast w (session?_of_action? ha hs) hne
  · rw [hperform]
    cases hs
    refine ⟨.refl s' _, fun _ _ => rfl, Outbound.sameFor_deliver w hne fun notice hnotice => ?_⟩
    rw [List.mem_singleton.mp hnotice]
  · cases hs

/-! ## The queue of a session that leaves -/

/-- A session that was stopped to leave has no queue, or the end of its stop will take it. -/
def Leaves (v : Venue) (s : SessionId) : Prop :=
  v.outbound.clients.get? s = none ∨ ∃ t d, v.broadcast.tasks.get? t = some (.stop s true d)

section Leaves
variable {s : SessionId}

theorem leaves_of_stopTask {x : Episode} {step : Progress Teardown Unit × Coordinator}
    (hresult : x.result = Coordinator.stopTask s true step) (o : Outbound) :
    Leaves ⟨x.after, o.follow x.result⟩ s := by
  obtain ⟨progress, c⟩ := step
  cases progress with
  | ongoing d =>
    refine .inr ⟨x.task, d, (x.get?_after x.task).trans ?_⟩
    rw [if_pos rfl, Episode.left, hresult]
    rfl
  | done =>
    refine .inl (Outbound.unregistered_of_left x.result ?_)
    rw [hresult]
    rfl

theorem leaves_of_stop (v : Venue) (s : SessionId) : (v.act (.request (.stop s true))).Leaves s :=
  leaves_of_stopTask (x := ⟨v.broadcast, .request (.stop s true), ⟨v.broadcast.nextTask⟩, none, _⟩) rfl
    v.outbound

theorem leaves_act (h : v.broadcast.Consistent) (hleaves : v.Leaves s) (a : Action) :
    (v.act a).Leaves s := by
  rcases act_cases v a with ⟨x, hx, hact⟩ | ⟨_, hact⟩
  · obtain ⟨_, hoccurs, hbefore, _⟩ := Broadcast.step?_of_episode? hx
    rw [hact]
    rcases hleaves with hnone | ⟨t, d, ht⟩
    · exact .inl (Outbound.unregistered_follow x.result hnone)
    · rw [← hbefore] at h ht
      by_cases htask : x.task = t
      · subst htask
        have hwas := (hoccurs.taken h).task.symm.trans ht
        cases hoccurs with
        | request => cases hwas
        | turn =>
          cases hwas
          exact .inr ⟨_, d, (Episode.get?_after _).trans (if_pos rfl)⟩
        | reply =>
          cases hwas
          exact leaves_of_stopTask rfl _
      · exact .inr ⟨t, d, ((x.get?_after t).trans (if_neg htask)).trans ht⟩
  · rwa [hact]

theorem leaves_perform (h : v.broadcast.Consistent) (hleaves : v.Leaves s) {op : Op}
    (hop : op.comesFrom s = false) : (v.perform limit op).Leaves s := by
  rcases perform_cases limit v op with
    ⟨a, _, hperform⟩ | ⟨s', content, _, _, hperform⟩ | ⟨change, rfl, hperform⟩
  · rw [hperform]
    exact leaves_act h hleaves a
  · rw [hperform]
    rcases hleaves with hnone | hstop
    · exact .inl (Outbound.unregistered_deliver hnone _)
    · exact .inr hstop
  · rw [hperform]
    rcases hleaves with hnone | hstop
    · exact .inl (Outbound.unregistered_perform hnone hop)
    · exact .inr hstop

theorem leaves_run {actions : List Action} (hbroadcast : v.broadcast = Broadcast.run {} actions)
    (hleaves : v.Leaves s) {ops : List Op} (hops : ∀ op ∈ ops, op.comesFrom s = false) :
    (v.run limit ops).Leaves s := by
  induction ops generalizing v actions with
  | nil => exact hleaves
  | cons op rest ih =>
    have h : v.broadcast.Consistent := hbroadcast ▸ Broadcast.consistent actions
    have hnext : (v.perform limit op).broadcast =
        Broadcast.run {} (actions ++ (op.action? limit).toList) := by
      rw [broadcast_perform, hbroadcast, Broadcast.run_append_run]
    exact ih hnext (leaves_perform h hleaves (hops op List.mem_cons_self))
      fun op' hmem => hops op' (List.mem_cons_of_mem _ hmem)

end Leaves

/-- A session whose client has left, and for which nobody works any more, leaves nothing behind. -/
theorem no_residue (limit size : Nat) (before after : List Op) (s : SessionId)
    (hafter : ∀ op ∈ after, op.comesFrom s = false)
    (hdone : ∀ t task,
      ((opened size).run limit (before ++ .act (.request (.stop s true)) :: after)).broadcast.tasks.get? t =
        some task →
      ¬ ((opened size).run limit
        (before ++ .act (.request (.stop s true)) :: after)).broadcast.WorksFor s task) :
    let ops := before ++ .act (.request (.stop s true)) :: after
    let v := (opened size).run limit ops
    v.broadcast.Gone s ∧ v.outbound.clients.get? s = none ∧
      (∀ role, v.broadcast.coordinator.metrics.gauge role = tally role v.broadcast.shown) ∧
      ∀ earlier op later, ops = earlier ++ op :: later →
        op.session? ((opened size).run limit earlier) = some s → ∀ s', s ≠ s' →
        SameFor s' ((opened size).run limit earlier)
          (((opened size).run limit earlier).perform limit op) := by
  intro ops v
  have hreached : ∀ ops, ((opened size).run limit ops).broadcast =
      Broadcast.run {} (ops.filterMap (Op.action? limit)) := fun ops => broadcast_run ops
  have hactions : ops.filterMap (Op.action? limit) = before.filterMap (Op.action? limit) ++
      .request (.stop s true) :: after.filterMap (Op.action? limit) := by
    rw [List.filterMap_append]
    rfl
  have hdeparted : v.broadcast.Departed s := by
    rw [hreached ops, hactions]
    apply Broadcast.Departed.since_stop
    intro a ha
    obtain ⟨op, hop, haction⟩ := List.mem_filterMap.mp ha
    exact message?_of_action? haction (hafter op hop)
  have hleaves : v.Leaves s := by
    have hsplit : v = (((opened size).run limit before).act (.request (.stop s true))).run limit after :=
      run_append before _
    have hbroadcast : (((opened size).run limit before).act (.request (.stop s true))).broadcast =
        Broadcast.run {} (before.filterMap (Op.action? limit) ++ [.request (.stop s true)]) := by
      rw [broadcast_act, hreached before, Broadcast.run_append]
    exact hsplit ▸ leaves_run hbroadcast (leaves_of_stop _ s) hafter
  have hgone : v.broadcast.Gone s := by
    rw [hreached ops] at hdone hdeparted ⊢
    exact hdeparted.gone hdone
  refine ⟨hgone, ?_, ?_, ?_⟩
  · rcases hleaves with hnone | ⟨t, d, ht⟩
    · exact hnone
    · exact absurd .stop (hdone t _ ht)
  · intro role
    rw [hreached ops]
    exact Broadcast.gauge_eq _ role
  · intro earlier op later _ hs s' hne
    exact sameFor_perform (hreached earlier) (sound_run (Outbound.sound_ofSize size) earlier) hs hne

/-- A client stops its negotiation, begins another one, and leaves before either has come to its end. -/
theorem no_residue_of_two_negotiations :
    let before : List Op := [.queue (.register ⟨1⟩), .queue (.register ⟨2⟩),
      .act (.request (.prepare ⟨1⟩ .presenter "offer")), .act (.turn ⟨0⟩),
      .act (.reply ⟨0⟩ (.ok "pipeline")), .act (.reply ⟨0⟩ (.ok "mixer")),
      .act (.reply ⟨0⟩ (.ok "endpoint")), .act (.request (.stop ⟨1⟩ false)),
      .act (.request (.prepare ⟨1⟩ .viewer "anew"))]
    let after : List Op := [.act (.reply ⟨0⟩ (.ok "port")), .act (.reply ⟨0⟩ (.ok "")),
      .act (.reply ⟨0⟩ (.ok "")), .act (.turn ⟨2⟩)]
    let v := (opened 1).run 4096 (before ++ .act (.request (.stop ⟨1⟩ true)) :: after)
    (∀ op ∈ after, op.comesFrom ⟨1⟩ = false) ∧ (∀ t, v.broadcast.tasks.get? t = none) ∧
      (Broadcast.releases v.broadcast.log).count ⟨"endpoint"⟩ = 1 ∧
      (Broadcast.releases v.broadcast.log).count ⟨"port"⟩ = 1 ∧ v.outbound.clients.get? ⟨1⟩ = none ∧
      v.broadcast.coordinator.metrics.gauge .presenter = tally .presenter v.broadcast.shown := by
  intro before after v
  have hafter : ∀ op ∈ after, op.comesFrom ⟨1⟩ = false := by decide +kernel
  have hidle : ∀ t, v.broadcast.tasks.get? t = none := Table.get?_of_isEmpty (by decide +kernel)
  have hdone : ∀ t task, v.broadcast.tasks.get? t = some task → ¬ v.broadcast.WorksFor ⟨1⟩ task := by
    intro t task ht
    cases (hidle t).symm.trans ht
  obtain ⟨hgone, hleft, hgauge, _⟩ := no_residue 4096 1 before after ⟨1⟩ hafter hdone
  have hprepared : v.broadcast.Prepared ⟨1⟩ ⟨1⟩ := by
    unfold Broadcast.Prepared
    decide +kernel
  have hreleased := fun kind id => hgone.released ⟨1⟩ kind id hprepared
  refine ⟨hafter, hidle, ?_, ?_, hleft, hgauge .presenter⟩
  · exact hreleased .endpoint ⟨"endpoint"⟩ rfl (by decide +kernel)
  · exact hreleased .port ⟨"port"⟩ rfl (by decide +kernel)

end Venue

/-! ## The hub -/

/-- A client whose stop has come to its end loses its queue. -/
def Hub.letLeave (h : Hub) : Progress Task Ending → Hub
  | .done (.left s) => { h with outbound := h.outbound.remove s }
  | _ => h

theorem Hub.letLeave_of_not_left {h : Hub} {progress : Progress Task Ending}
    (hno : ∀ s, progress ≠ .done (.left s)) : h.letLeave progress = h := by
  unfold letLeave
  split
  · exact absurd rfl (hno _)
  · rfl

namespace Venue
open Broadcast (Episode)

/-- A venue has the coordinator of a hub and its queues. -/
structure Shows (v : Venue) (h : Hub) : Prop where
  coordinator : v.broadcast.coordinator = h.coordinator
  outbound : v.outbound = h.outbound

namespace Shows
variable {v : Venue} {h : Hub} (hv : v.Shows h)
include hv

theorem of_occurs {x : Episode} (hx : x.Occurs) (hbefore : x.before = v.broadcast) :
    (v.act x.action).Shows
      (({ h with coordinator := x.result.coordinator }.deliver x.result.notices).letLeave
        x.result.task) := by
  have hact : v.act x.action = { broadcast := x.after, outbound := v.outbound.follow x.result } := by
    unfold act
    rw [← hbefore, hx.episode?]
  rw [hact, hv.outbound]
  unfold Outbound.follow Hub.letLeave
  split
  · exact ⟨rfl, rfl⟩
  · exact ⟨rfl, rfl⟩

/-- A task of the hub goes on when its turn has come. -/
theorem turn {t : TaskId} {task : Task} (ht : v.broadcast.tasks.get? t = some task)
    (hturn : h.coordinator.hasTurn t task) :
    (v.act (.turn t)).Shows ((h.step t task .turn).2.letLeave (h.step t task .turn).1) := by
  rw [← hv.coordinator] at hturn
  have hnext := hv.of_occurs (.turn ht hturn) rfl
  rwa [hv.coordinator] at hnext

/-- A task of the hub goes on when its call is answered. -/
theorem reply {t : TaskId} {task : Task} {call : EngineCall SessionId} {reply : Reply}
    (ht : v.broadcast.tasks.get? t = some task) (hcall : task.call? = some call)
    (hreply : Broadcast.admits v.broadcast.log call reply) :
    (v.act (.reply t reply)).Shows
      ((h.step t task (.reply reply)).2.letLeave (h.step t task (.reply reply)).1) := by
  have hnext := hv.of_occurs (.reply ht hcall hreply) rfl
  rwa [hv.coordinator] at hnext

/-- What is asked for is served; only a shutdown depends on the sessions that are there. -/
theorem request {q : Broadcast.Request} {result : StepResult}
    (hserved : Broadcast.serve h.coordinator ⟨v.broadcast.nextTask⟩ q = result)
    (hq : ∀ order, q ≠ .shutdown order) :
    (v.act (.request q)).Shows
      (({ h with coordinator := result.coordinator }.deliver result.notices).letLeave result.task) := by
  have hnext := hv.of_occurs (.request fun order hshutdown => absurd hshutdown (hq order)) rfl
  rwa [hv.coordinator, hserved] at hnext

/-- A session is stopped, and its client may leave. -/
theorem stop (s : SessionId) (leaving : Bool) :
    let result := Coordinator.stopTask s leaving (h.coordinator.stop s)
    (v.act (.request (.stop s leaving))).Shows
      ({ h with coordinator := result.coordinator }.letLeave result.task) := by
  intro result
  have hserved : Broadcast.serve h.coordinator ⟨v.broadcast.nextTask⟩ (.stop s leaving) = result := rfl
  have hnext := hv.request hserved fun order hshutdown => by cases hshutdown
  have hsilent : result.notices = [] := Coordinator.stopTask_notices _ _ _
  rwa [hsilent] at hnext

/-- A client of the hub sends a text. -/
theorem text (s : SessionId) (content : String) :
    (v.perform h.settings.maxMessage (.text s content)).Shows (h.dispatch s content).2.2 := by
  cases hread : ClientMessage.decode h.settings.maxMessage content with
  | error fault =>
    rw [perform_of_unreadable _ v hread, hv.outbound]
    unfold Hub.dispatch
    rw [Broadcast.dispatch_of_unreadable h.coordinator hread]
    exact ⟨hv.coordinator, rfl⟩
  | ok m =>
    obtain ⟨hcoordinator, hnotices, _⟩ :=
      Broadcast.serve_of_text h.coordinator ⟨v.broadcast.nextTask⟩ (s := s) hread
    have hnext := hv.request (q := m.request s) rfl fun order hshutdown => by
      cases m <;> cases hshutdown
    have hstays := Broadcast.serve_not_left h.coordinator ⟨v.broadcast.nextTask⟩ m s
    rw [Hub.letLeave_of_not_left hstays, hcoordinator, hnotices] at hnext
    rw [perform_of_read _ v hread]
    exact hnext

end Shows

/-- A rehearsal lets a client leave when its task ends so. -/
theorem Shows.finish {v : Venue} {r : Rehearsal} {ending : Ending}
    (hv : v.Shows (r.hub.letLeave (.done ending))) (t : TaskId) (command : Option Nat) :
    v.Shows (r.finish t command ending).hub := by
  have hsame : (r.finish t command ending).hub.coordinator =
        (r.hub.letLeave (.done ending)).coordinator ∧
      (r.finish t command ending).hub.outbound = (r.hub.letLeave (.done ending)).outbound := by
    unfold Rehearsal.finish Hub.letLeave
    cases ending <;> cases command <;> exact ⟨rfl, rfl⟩
  exact ⟨hv.coordinator.trans hsame.1.symm, hv.outbound.trans hsame.2.symm⟩

end Venue

end Rostrum
