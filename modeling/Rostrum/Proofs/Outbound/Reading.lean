import Mathlib.Data.List.Induction
import Rostrum.Proofs.Outbound.Queues

/-!
# What a reader gets

A session that registers gets a reader of its own. Main statement: what the reader has read, and what
still waits for it, is the beginning of what was sent to the session since then, and all of it unless
a message came while the queue was full. That message ends the registration: nothing more is queued,
and the reader reads what is there and then the end of the queue.

The messages meant are those sent until the session registers again or is removed, or until the
reader is dropped. What a reader had not read when it was dropped counts as still waiting for it.
-/

namespace Rostrum.Outbound

inductive Op where
  | register (s : SessionId)
  | remove (s : SessionId)
  | send (s : SessionId) (m : ServerMessage)
  | receive (q : QueueId)
  | close (q : QueueId)

/-- What an operation answers. -/
inductive Answer where
  | reader (q : QueueId)
  | sent (queued : Bool)
  /-- Nothing can be found by a reader that was dropped. -/
  | found (what : Option Received)
  | nothing

def perform (o : Outbound) : Op → Answer × Outbound
  | .register s => (.reader (o.register s).1, (o.register s).2)
  | .remove s => (.nothing, o.remove s)
  | .send s m => (.sent (o.send s m).1, (o.send s m).2)
  | .receive q => (.found ((o.receive q).map Prod.fst), ((o.receive q).map Prod.snd).getD o)
  | .close q => (.nothing, o.close q)

def run (o : Outbound) (ops : List Op) : Outbound := ops.foldl (fun o op => (o.perform op).2) o

/-- The message that a reader reads by an operation with this answer. -/
def read? (q : QueueId) : Op → Answer → Option ServerMessage
  | .receive q', .found (some (.message m)) => if q' = q then some m else none
  | _, _ => none

/-- What a reader reads by some operations. -/
def readBy (o : Outbound) (q : QueueId) : List Op → List ServerMessage
  | [] => []
  | op :: rest => (read? q op (o.perform op).1).toList ++ (o.perform op).2.readBy q rest

namespace Op

/-- The message an operation sends to a session. -/
def sent? (s : SessionId) : Op → Option ServerMessage
  | .send s' m => if s' = s then some m else none
  | _ => none

def registers (s : SessionId) : Op → Bool
  | .register s' => s' = s
  | _ => false

def drops (q : QueueId) : Op → Bool
  | .close q' => q' = q
  | _ => false

/-- Whether an operation cuts a reader off from its session. -/
def cuts (s : SessionId) (q : QueueId) : Op → Bool
  | .register s' | .remove s' => s' = s
  | op => op.drops q

end Op

/-- What is sent to a session before it is cut off from its reader. -/
def sentTo (s : SessionId) (q : QueueId) (ops : List Op) : List ServerMessage :=
  (ops.takeWhile fun op => !op.cuts s q).filterMap (Op.sent? s)

/-- What waits for a reader after some operations, or waited for it when it was dropped. -/
def leftFor (o : Outbound) (q : QueueId) (ops : List Op) : List ServerMessage :=
  (o.run (ops.takeWhile fun op => !op.drops q)).queued q

variable {o : Outbound} {s : SessionId} {q : QueueId} {waiting : List ServerMessage}

theorem run_append (ops more : List Op) : o.run (ops ++ more) = (o.run ops).run more :=
  List.foldl_append

theorem Sound.perform (w : o.Sound) (op : Op) : (Outbound.perform o op).2.Sound := by
  cases op with
  | register s => exact w.register s
  | remove s => exact w.remove s
  | send s m => exact w.send s m
  | receive q =>
    simp only [Outbound.perform]
    cases h : o.receive q with
    | none => exact w
    | some found => exact w.receive h
  | close q => exact w.close q

theorem Sound.run (w : o.Sound) (ops : List Op) : (Outbound.run o ops).Sound := by
  induction ops generalizing o with
  | nil => exact w
  | cons op rest ih => exact ih (w.perform op)

/-- A reader takes messages out, and changes nothing else. -/
theorem perform_receive_eq (o : Outbound) (q : QueueId) :
    ∃ boxes, (o.perform (.receive q)).2 = { o with boxes := boxes } := by
  have h := receive_receives o q
  simp only [perform]
  generalize o.receive q = result at h
  cases h with
  | gone _ => exact ⟨o.boxes, rfl⟩
  | message _ => exact ⟨_, rfl⟩
  | nothing _ => exact ⟨o.boxes, rfl⟩

theorem capacity_perform (op : Op) : (o.perform op).2.capacity = o.capacity := by
  cases op with
  | send s m =>
    have h := send_sends o s m
    simp only [perform]
    generalize o.send s m = result at h
    cases h <;> rfl
  | receive q =>
    obtain ⟨boxes, h⟩ := o.perform_receive_eq q
    rw [h]
  | _ => rfl

theorem capacity_run (ops : List Op) : (o.run ops).capacity = o.capacity := by
  induction ops generalizing o with
  | nil => rfl
  | cons op rest ih => exact ih.trans (capacity_perform op)

theorem Sound.queued_le (w : o.Sound) (q : QueueId) : (o.queued q).length ≤ o.capacity := by
  unfold queued
  cases h : o.boxes.get? q with
  | none => exact Nat.zero_le _
  | some box => exact w.bounded q box h

theorem read?_of_ne {q' : QueueId} (hne : q' ≠ q) (answer : Answer) :
    read? q (.receive q') answer = none := by
  unfold read?
  split
  · rename_i heq
    cases heq
    exact if_neg hne
  · rfl

/-! ## The three conditions of a reader -/

/-- A reader that gets what is sent to a session. -/
structure Attached (o : Outbound) (s : SessionId) (q : QueueId) (waiting : List ServerMessage) :
    Prop where
  sound : o.Sound
  client : o.clients.get? s = some q
  box : o.boxes.get? q = some ⟨waiting, true⟩

/-- A reader that gets no more messages. -/
structure Detached (o : Outbound) (q : QueueId) (waiting : List ServerMessage) : Prop where
  sound : o.Sound
  no_client : ∀ s, o.clients.get? s ≠ some q
  box : o.boxes.get? q = some ⟨waiting, true⟩

/-- A reader that was dropped. -/
structure Dropped (o : Outbound) (q : QueueId) : Prop where
  sound : o.Sound
  box : o.boxes.get? q = some ⟨[], false⟩

theorem register_attached (w : o.Sound) (s : SessionId) :
    (o.register s).2.Attached s (o.register s).1 [] :=
  ⟨w.register s, Table.get?_put_self _ _ _, Table.get?_put_self _ _ _⟩

/-- A new queue is none of those that exist. -/
theorem Sound.boxes_register {box : Mailbox} (w : o.Sound) (h : o.boxes.get? q = some box)
    (s : SessionId) : (o.register s).2.boxes.get? q = some box := by
  have hne : (⟨o.nextQueue⟩ : QueueId) ≠ q := by
    rintro rfl
    exact Nat.lt_irrefl _ (w.box_made _ _ h)
  rw [Outbound.register, Table.get?_put_of_ne _ _ hne, h]

theorem boxes_perform_receive {q' : QueueId} (hne : q' ≠ q) :
    (o.perform (.receive q')).2.boxes.get? q = o.boxes.get? q := by
  have h := receive_receives o q'
  simp only [perform]
  generalize o.receive q' = result at h
  cases h with
  | gone _ => rfl
  | message _ => exact Table.get?_put_of_ne _ _ hne
  | nothing _ => rfl

theorem clients_perform_receive (q' : QueueId) :
    (o.perform (.receive q')).2.clients = o.clients := by
  obtain ⟨boxes, h⟩ := o.perform_receive_eq q'
  rw [h]

theorem nextQueue_send (s : SessionId) (m : ServerMessage) :
    (o.send s m).2.nextQueue = o.nextQueue := by
  have h := send_sends o s m
  generalize o.send s m = result at h
  cases h <;> rfl

theorem perform_receive_message {m : ServerMessage} (h : o.boxes.get? q = some ⟨m :: waiting, true⟩) :
    o.perform (.receive q) =
      (.found (some (.message m)), { o with boxes := o.boxes.put q ⟨waiting, true⟩ }) := by
  simp [perform, receive, h]

theorem perform_receive_nothing (h : o.boxes.get? q = some ⟨[], true⟩) :
    o.perform (.receive q) = (.found (some (if o.hasSender q then .empty else .closed)), o) := by
  simp [perform, receive, h]

/-- What waits for a reader is read from the front. -/
theorem box_perform_receive (h : o.boxes.get? q = some ⟨waiting, true⟩) (q' : QueueId) :
    ∃ waiting', (o.perform (.receive q')).2.boxes.get? q = some ⟨waiting', true⟩ ∧
      waiting = (read? q (.receive q') (o.perform (.receive q')).1).toList ++ waiting' := by
  by_cases hq : q' = q
  · subst hq
    cases waiting with
    | nil =>
      rw [perform_receive_nothing h]
      refine ⟨[], h, ?_⟩
      split <;> rfl
    | cons m rest =>
      rw [perform_receive_message h]
      exact ⟨rest, Table.get?_put_self _ _ _, by simp [read?]⟩
  · refine ⟨waiting, (boxes_perform_receive hq).trans h, ?_⟩
    rw [read?_of_ne hq]
    rfl

theorem boxes_perform_close (h : o.boxes.get? q = some ⟨waiting, true⟩) :
    (o.perform (.close q)).2.boxes.get? q = some ⟨[], false⟩ := by
  simp [perform, get?_boxes_close, h]

theorem boxes_perform_close_of_ne {q' : QueueId} (hne : q' ≠ q) :
    (o.perform (.close q')).2.boxes.get? q = o.boxes.get? q := by
  simp [perform, get?_boxes_close, hne]

/-! ## A reader that was dropped -/

theorem Dropped.perform (d : o.Dropped q) (op : Op) :
    (o.perform op).2.Dropped q ∧ read? q op (o.perform op).1 = none := by
  refine ⟨⟨d.sound.perform op, ?_⟩, ?_⟩
  · cases op with
    | register s => exact d.sound.boxes_register d.box s
    | remove s => exact d.box
    | send s m =>
      have h := send_sends o s m
      simp only [Outbound.perform]
      generalize o.send s m = result at h
      cases h with
      | @queued q' _ _ hb _ =>
        have hne : q' ≠ q := by
          rintro rfl
          rw [d.box] at hb
          cases hb
        exact (Table.get?_put_of_ne _ _ hne).trans d.box
      | full _ => exact d.box
      | lost _ => exact d.box
    | receive q' =>
      by_cases hq : q' = q
      · subst hq
        simp [Outbound.perform, receive, d.box]
      · exact (boxes_perform_receive hq).trans d.box
    | close q' =>
      by_cases hq : q' = q
      · subst hq
        simp [Outbound.perform, get?_boxes_close, d.box]
      · exact (boxes_perform_close_of_ne hq).trans d.box
  · cases op with
    | receive q' =>
      by_cases hq : q' = q
      · subst hq
        simp [Outbound.perform, receive, d.box, read?]
      · exact read?_of_ne hq _
    | _ => rfl

theorem Dropped.readBy_eq (d : o.Dropped q) (ops : List Op) : o.readBy q ops = [] := by
  induction ops generalizing o with
  | nil => rfl
  | cons op rest ih =>
    obtain ⟨d', hread⟩ := d.perform op
    rw [readBy, hread]
    exact ih d'

theorem leftFor_cons (op : Op) (rest : List Op) : o.leftFor q (op :: rest) =
    if op.drops q then o.queued q else (o.perform op).2.leftFor q rest := by
  cases h : op.drops q <;> simp [leftFor, h, run]

/-- A reader that is dropped takes no notice of what comes after. -/
theorem readBy_of_drops {op : Op} (h : o.boxes.get? q = some ⟨waiting, true⟩) (w : o.Sound)
    (hdrop : op.drops q) (rest : List Op) : o.readBy q (op :: rest) = [] := by
  cases op with
  | close q' =>
    obtain rfl : q' = q := of_decide_eq_true hdrop
    exact Dropped.readBy_eq ⟨w.close q', boxes_perform_close h⟩ rest
  | _ => cases hdrop

/-! ## A reader that gets no more messages -/

theorem Detached.perform (d : o.Detached q waiting) {op : Op} (hdrop : op.drops q = false) :
    ∃ waiting', (o.perform op).2.Detached q waiting' ∧
      waiting = (read? q op (o.perform op).1).toList ++ waiting' := by
  have hsound := d.sound.perform op
  cases op with
  | register s =>
    refine ⟨waiting, ⟨hsound, fun s' h => ?_, d.sound.boxes_register d.box s⟩, rfl⟩
    rw [Outbound.perform, register, Table.get?_put] at h
    split at h
    · cases h
      exact Nat.lt_irrefl _ (d.sound.box_made _ _ d.box)
    · exact d.no_client s' h
  | remove s =>
    refine ⟨waiting, ⟨hsound, fun s' h => ?_, d.box⟩, rfl⟩
    rw [Outbound.perform, remove, Table.get?_erase] at h
    split at h
    · cases h
    · exact d.no_client s' h
  | send s m =>
    refine ⟨waiting, ⟨hsound, fun s' h => ?_, (boxes_send (d.no_client s) m).trans d.box⟩, rfl⟩
    rcases clients_send_cases s m s' with hsame | hnone
    · exact d.no_client s' (hsame.symm.trans h)
    · cases hnone.symm.trans h
  | receive q' =>
    obtain ⟨waiting', hbox, hread⟩ := box_perform_receive d.box q'
    have hclients := clients_perform_receive (o := o) q'
    exact ⟨waiting', ⟨hsound, fun s => hclients ▸ d.no_client s, hbox⟩, hread⟩
  | close q' =>
    have hq : q' ≠ q := of_decide_eq_false hdrop
    exact ⟨waiting, ⟨hsound, d.no_client, (boxes_perform_close_of_ne hq).trans d.box⟩, rfl⟩

theorem Detached.run (d : o.Detached q waiting) {ops : List Op} (hdrop : ∀ op ∈ ops, op.drops q = false) :
    ∃ waiting', (Outbound.run o ops).Detached q waiting' ∧ waiting = o.readBy q ops ++ waiting' := by
  induction ops generalizing o waiting with
  | nil => exact ⟨waiting, d, rfl⟩
  | cons op rest ih =>
    obtain ⟨hop, hrest⟩ := List.forall_mem_cons.mp hdrop
    obtain ⟨waiting₁, d₁, rfl⟩ := d.perform hop
    obtain ⟨waiting₂, d₂, rfl⟩ := ih d₁ hrest
    exact ⟨waiting₂, d₂, (List.append_assoc _ _ _).symm⟩

/-- What waits for a detached reader is read or left for it. -/
theorem Detached.reads (d : o.Detached q waiting) (ops : List Op) :
    o.readBy q ops ++ o.leftFor q ops = waiting := by
  induction ops generalizing o waiting with
  | nil => exact queued_of_get? d.box
  | cons op rest ih =>
    rw [leftFor_cons]
    cases hdrop : op.drops q with
    | true =>
      rw [readBy_of_drops d.box d.sound hdrop]
      exact queued_of_get? d.box
    | false =>
      obtain ⟨waiting', d', rfl⟩ := d.perform hdrop
      rw [readBy, List.append_assoc]
      exact congrArg (_ ++ ·) (ih d')

theorem Detached.receive (d : o.Detached q waiting) : (o.perform (.receive q)).1 =
    .found (some (match waiting with | m :: _ => .message m | [] => .closed)) := by
  cases waiting with
  | nil =>
    have hnone : o.hasSender q = false := by
      rw [Bool.eq_false_iff, Ne, d.sound.hasSender_iff]
      rintro ⟨s, hs⟩
      exact d.no_client s hs
    rw [perform_receive_nothing d.box, hnone]
    rfl
  | cons m rest => rw [perform_receive_message d.box]

/-! ## A reader that gets what is sent -/

/-- A reader is cut off from its session. -/
theorem Attached.cut (a : o.Attached s q waiting) {op : Op} (hcut : op.cuts s q)
    (hdrop : op.drops q = false) :
    (o.perform op).2.Detached q waiting ∧ read? q op (o.perform op).1 = none := by
  have hsound := a.sound.perform op
  cases op with
  | register s' =>
    obtain rfl : s' = s := of_decide_eq_true hcut
    refine ⟨⟨hsound, fun s'' h => ?_, a.sound.boxes_register a.box s'⟩, rfl⟩
    rw [perform, register, Table.get?_put] at h
    split at h
    · cases h
      exact Nat.lt_irrefl _ (a.sound.box_made _ _ a.box)
    · rename_i hne
      exact hne (a.sound.one_client _ _ _ a.client h)
  | remove s' =>
    obtain rfl : s' = s := of_decide_eq_true hcut
    refine ⟨⟨hsound, fun s'' h => ?_, a.box⟩, rfl⟩
    rw [perform, remove, Table.get?_erase] at h
    split at h
    · cases h
    · rename_i hne
      exact hne (a.sound.one_client _ _ _ a.client h)
  | send _ _ | receive _ => cases hcut
  | close q' => cases hdrop.symm.trans hcut

/-- A full queue drops the message, and its session loses the queue. -/
theorem Attached.overflow (a : o.Attached s q waiting) (hfull : o.IsFull s) (m : ServerMessage) :
    (o.send s m).2.Detached q waiting ∧ (o.send s m).2.clients.get? s = none := by
  rw [send_of_full m hfull]
  refine ⟨⟨a.sound.remove s, fun s' h => ?_, a.box⟩, Table.get?_erase_self _ _⟩
  rw [remove, Table.get?_erase] at h
  split at h
  · cases h
  · rename_i hne
    exact hne (a.sound.one_client _ _ _ a.client h)

theorem Attached.perform (a : o.Attached s q waiting) {op : Op} (hcut : op.cuts s q = false)
    (hroom : ∀ m, op = .send s m → ¬ o.IsFull s) :
    ∃ waiting', (o.perform op).2.Attached s q waiting' ∧
      waiting ++ (op.sent? s).toList = (read? q op (o.perform op).1).toList ++ waiting' := by
  have hsound := a.sound.perform op
  cases op with
  | register s' =>
    have hne : s' ≠ s := of_decide_eq_false hcut
    exact ⟨waiting, ⟨hsound, (Table.get?_put_of_ne _ _ hne).trans a.client,
      a.sound.boxes_register a.box s'⟩, List.append_nil _⟩
  | remove s' =>
    have hne : s' ≠ s := of_decide_eq_false hcut
    exact ⟨waiting, ⟨hsound, (Table.get?_erase_of_ne _ hne).trans a.client, a.box⟩,
      List.append_nil _⟩
  | send s' m =>
    by_cases hs : s' = s
    · subst hs
      have hspace : waiting.length < o.capacity := by
        by_contra hlen
        exact hroom m rfl ⟨q, waiting, a.client, a.box, Nat.le_of_not_lt hlen⟩
      have hsend : o.send s' m = (true, { o with boxes := o.boxes.put q ⟨waiting ++ [m], true⟩ }) := by
        simp [send, a.client, a.box, Nat.not_le_of_lt hspace]
      refine ⟨waiting ++ [m], ⟨hsound, ?_, ?_⟩, by simp [Op.sent?, read?]⟩
      · rw [Outbound.perform, hsend]
        exact a.client
      · rw [Outbound.perform, hsend]
        exact Table.get?_put_self _ _ _
    · have hother : o.clients.get? s' ≠ some q := fun h => hs (a.sound.one_client _ _ _ h a.client)
      exact ⟨waiting, ⟨hsound, (clients_send hs m).trans a.client, (boxes_send hother m).trans a.box⟩,
        by simp [Op.sent?, read?, hs]⟩
  | receive q' =>
    obtain ⟨waiting', hbox, hread⟩ := box_perform_receive a.box q'
    refine ⟨waiting', ⟨hsound, ?_, hbox⟩, (List.append_nil _).trans hread⟩
    rw [clients_perform_receive q']
    exact a.client
  | close q' =>
    have hq : q' ≠ q := of_decide_eq_false hcut
    exact ⟨waiting, ⟨hsound, a.client, (boxes_perform_close_of_ne hq).trans a.box⟩, List.append_nil _⟩

theorem Op.cuts_of_drops {op : Op} (h : op.drops q) : op.cuts s q := by
  cases op with
  | close q' => exact h
  | _ => cases h

theorem Op.not_registers_of_not_cuts {op : Op} (h : op.cuts s q = false) :
    op.registers s = false := by
  cases op with
  | register s' => exact h
  | _ => rfl

/-- Only registering brings a session a queue. -/
theorem unregistered_perform (h : o.clients.get? s = none) {op : Op} (hop : op.registers s = false) :
    (o.perform op).2.clients.get? s = none := by
  cases op with
  | register s' =>
    have hne : s' ≠ s := of_decide_eq_false hop
    exact (Table.get?_put_of_ne _ _ hne).trans h
  | remove s' =>
    rw [perform, remove, Table.get?_erase, h]
    exact ite_self none
  | send s' m =>
    rcases clients_send_cases (o := o) s' m s with hsame | hnone
    · exact hsame.trans h
    · exact hnone
  | receive q' =>
    rw [clients_perform_receive q']
    exact h
  | close q' => exact h

theorem unregistered_run (h : o.clients.get? s = none) {ops : List Op}
    (hops : ∀ op ∈ ops, op.registers s = false) : (o.run ops).clients.get? s = none := by
  induction ops generalizing o with
  | nil => exact h
  | cons op rest ih =>
    obtain ⟨hop, hrest⟩ := List.forall_mem_cons.mp hops
    exact ih (unregistered_perform h hop) hrest

/-- As long as a session is not cut off it has its reader, or no queue at all. -/
theorem Attached.run (a : o.Attached s q waiting) {ops : List Op}
    (hcuts : ∀ op ∈ ops, op.cuts s q = false) :
    (∃ waiting', (Outbound.run o ops).Attached s q waiting') ∨
      (Outbound.run o ops).clients.get? s = none := by
  induction ops using List.reverseRecOn with
  | nil => exact .inl ⟨waiting, a⟩
  | append_singleton ops op ih =>
    obtain ⟨hops, hop⟩ := List.forall_mem_append.mp hcuts
    have hcut := hop op (List.mem_singleton_self op)
    rw [run_append]
    rcases ih hops with ⟨waiting', a'⟩ | hnone
    · by_cases hfull : ∃ m, op = .send s m ∧ (Outbound.run o ops).IsFull s
      · obtain ⟨m, rfl, hfull⟩ := hfull
        exact .inr (a'.overflow hfull m).2
      · obtain ⟨waiting'', a'', _⟩ :=
          a'.perform hcut fun m hm hf => hfull ⟨m, hm, hf⟩
        exact .inl ⟨waiting'', a''⟩
    · exact .inr (unregistered_perform hnone (Op.not_registers_of_not_cuts hcut))

/-- A message came while the queue was full, before the session was cut off from its reader. -/
def Overflows (o : Outbound) (s : SessionId) (q : QueueId) (ops : List Op) : Prop :=
  ∃ earlier m later, ops = earlier ++ .send s m :: later ∧
    (∀ op ∈ earlier, op.cuts s q = false) ∧ (o.run earlier).IsFull s

theorem Overflows.cons {op : Op} {ops : List Op} (hcut : op.cuts s q = false)
    (h : (o.perform op).2.Overflows s q ops) : o.Overflows s q (op :: ops) := by
  obtain ⟨earlier, m, later, rfl, hcuts, hfull⟩ := h
  exact ⟨op :: earlier, m, later, rfl, List.forall_mem_cons.mpr ⟨hcut, hcuts⟩, hfull⟩

theorem sentTo_cons (op : Op) (rest : List Op) : sentTo s q (op :: rest) =
    if op.cuts s q then [] else (op.sent? s).toList ++ sentTo s q rest := by
  cases h : op.cuts s q
  · cases h' : op.sent? s <;> simp [sentTo, h, h']
  · simp [sentTo, h]

theorem Attached.reads (a : o.Attached s q waiting) (ops : List Op) :
    o.readBy q ops ++ o.leftFor q ops <+: waiting ++ sentTo s q ops ∧
      (o.readBy q ops ++ o.leftFor q ops = waiting ++ sentTo s q ops ∨ o.Overflows s q ops) := by
  induction ops generalizing o waiting with
  | nil =>
    have hleft : o.leftFor q [] = waiting := queued_of_get? a.box
    rw [hleft]
    exact ⟨List.prefix_append _ _, .inl (List.append_nil _).symm⟩
  | cons op rest ih =>
    rw [leftFor_cons, sentTo_cons]
    cases hdrop : op.drops q with
    | true =>
      have hcut : op.cuts s q = true := Op.cuts_of_drops hdrop
      rw [readBy_of_drops a.box a.sound hdrop, hcut]
      simp [queued_of_get? a.box]
    | false =>
      cases hcut : op.cuts s q with
      | true =>
        obtain ⟨d, hread⟩ := a.cut hcut hdrop
        have hall := d.reads rest
        simp only [readBy, hread, Option.toList_none, List.nil_append, if_true, Bool.false_eq_true,
          if_false, hall, List.append_nil]
        exact ⟨List.prefix_refl _, .inl trivial⟩
      | false =>
        by_cases hfull : ∃ m, op = .send s m ∧ o.IsFull s
        · obtain ⟨m, rfl, hfull⟩ := hfull
          have hall := (a.overflow hfull m).1.reads rest
          refine ⟨?_, .inr ⟨[], m, rest, rfl, nofun, hfull⟩⟩
          change ([] ++ (o.send s m).2.readBy q rest) ++ (o.send s m).2.leftFor q rest <+: _
          rw [List.nil_append, hall]
          exact List.prefix_append _ _
        · obtain ⟨waiting', a', heq⟩ := a.perform hcut fun m hm hf => hfull ⟨m, hm, hf⟩
          obtain ⟨hpre, hall⟩ := ih a'
          simp only [readBy, Bool.false_eq_true, if_false]
          rw [List.append_assoc, ← List.append_assoc waiting, heq, List.append_assoc]
          refine ⟨(List.prefix_append_right_inj _).mpr hpre, ?_⟩
          rcases hall with hall | hover
          · exact .inl (congrArg (_ ++ ·) hall)
          · exact .inr (hover.cons hcut)

/-! ## Other sessions -/

/-- A queue that serves one session at most. -/
structure Owns (o : Outbound) (s : SessionId) (q : QueueId) : Prop where
  made : q.number < o.nextQueue
  only : ∀ s', o.clients.get? s' = some q → s' = s

theorem Owns.perform (h : o.Owns s q) (op : Op) : (o.perform op).2.Owns s q := by
  have hkept : ∀ (o' : Outbound), o'.nextQueue = o.nextQueue →
      (∀ s', o'.clients.get? s' = o.clients.get? s' ∨ o'.clients.get? s' = none) → o'.Owns s q := by
    intro o' hnext hclients
    refine ⟨hnext ▸ h.made, fun s' hs' => ?_⟩
    rcases hclients s' with hsame | hnone
    · exact h.only s' (hsame.symm.trans hs')
    · cases hnone.symm.trans hs'
  cases op with
  | register s₁ =>
    refine ⟨Nat.lt_succ_of_lt h.made, fun s' hs' => ?_⟩
    rw [Outbound.perform, register, Table.get?_put] at hs'
    split at hs'
    · cases hs'
      exact absurd h.made (Nat.lt_irrefl _)
    · exact h.only s' hs'
  | remove s₁ =>
    refine hkept _ rfl fun s' => ?_
    rw [Outbound.perform, remove, Table.get?_erase]
    split
    · exact .inr rfl
    · exact .inl rfl
  | send s₁ m => exact hkept _ (nextQueue_send s₁ m) (clients_send_cases s₁ m)
  | receive q' =>
    obtain ⟨boxes, heq⟩ := o.perform_receive_eq q'
    rw [heq]
    exact hkept _ rfl fun _ => .inl rfl
  | close q' => exact hkept _ rfl fun _ => .inl rfl

theorem Owns.run (h : o.Owns s q) (ops : List Op) : (Outbound.run o ops).Owns s q := by
  induction ops generalizing o with
  | nil => exact h
  | cons op rest ih => exact ih (h.perform op)

theorem register_owns (w : o.Sound) (s : SessionId) : (o.register s).2.Owns s (o.register s).1 := by
  refine ⟨Nat.lt_succ_self _, fun s' hs' => ?_⟩
  have a := register_attached w s
  exact a.sound.one_client _ _ _ hs' a.client

/-! ## The main statement -/

/-- What a reader that gets no more messages finds. -/
def finds : List ServerMessage → Received
  | [] => .closed
  | m :: _ => .message m

/-- The reader of a session gets the beginning of what is sent to it, without a gap. -/
theorem reads_without_gap (size : Nat) (before after : List Op) (s : SessionId) :
    let q := (((ofSize size).run before).register s).1
    let o := (((ofSize size).run before).register s).2
    (o.readBy q after ++ o.leftFor q after <+: sentTo s q after ∧
      ((o.run after).queued q).length ≤ max 1 size ∧
      (o.readBy q after ++ o.leftFor q after = sentTo s q after ∨ o.Overflows s q after)) ∧
    (∀ earlier m later, after = earlier ++ .send s m :: later →
      (∀ op ∈ earlier, op.cuts s q = false) → (o.run earlier).IsFull s →
      ((o.run earlier).send s m).1 = false ∧
      ((o.run earlier).send s m).2.isRegistered s = false ∧
      (∀ between m' rest, later = between ++ .send s m' :: rest →
        (∀ op ∈ between, op.registers s = false) →
        ((((o.run earlier).send s m).2.run between).send s m').1 = false) ∧
      ((∀ op ∈ later, op.drops q = false) →
        ((o.run earlier).send s m).2.readBy q later ++ (o.run after).queued q =
          (o.run earlier).queued q ∧
        ((o.run after).perform (.receive q)).1 = .found (some (finds ((o.run after).queued q))))) ∧
    ∀ earlier s' m later, after = earlier ++ .send s' m :: later → s' ≠ s →
      ((o.run earlier).send s' m).2.clients.get? s = (o.run earlier).clients.get? s ∧
      ((o.run earlier).send s' m).2.boxes.get? q = (o.run earlier).boxes.get? q := by
  intro q o
  have hsound := (sound_ofSize size).run before
  have a : o.Attached s q [] := register_attached hsound s
  refine ⟨?_, ?_, ?_⟩
  · obtain ⟨hpre, hall⟩ := a.reads after
    refine ⟨hpre, ?_, hall⟩
    have hcap : (o.run after).capacity = max 1 size := by
      rw [capacity_run]
      exact capacity_run (o := ofSize size) before
    rw [← hcap]
    exact (a.sound.run after).queued_le q
  · rintro earlier m later rfl hcuts hfull
    -- the session is registered, so the full queue is the one of this reader
    obtain ⟨waiting, a'⟩ : ∃ waiting, (o.run earlier).Attached s q waiting := by
      rcases a.run hcuts with ha | hnone
      · exact ha
      · obtain ⟨_, _, hclient, _⟩ := hfull
        cases hnone.symm.trans hclient
    obtain ⟨d, hnone⟩ := a'.overflow hfull m
    have hrun : o.run (earlier ++ .send s m :: later) = ((o.run earlier).send s m).2.run later :=
      run_append _ _
    refine ⟨congrArg Prod.fst (send_of_full m hfull), by simp [isRegistered, Table.contains, hnone], ?_,
      ?_⟩
    · rintro between m' rest rfl hreg
      exact congrArg Prod.fst (send_of_unregistered m' (unregistered_run hnone hreg))
    · intro hdrop
      obtain ⟨waiting', d', hread⟩ := d.run hdrop
      rw [hrun, queued_of_get? d'.box, queued_of_get? a'.box]
      refine ⟨hread.symm, ?_⟩
      rw [d'.receive]
      cases waiting' <;> rfl
  · rintro earlier s' m later rfl hne
    have howns := (register_owns hsound s).run earlier
    exact ⟨clients_send hne m, boxes_send (fun h => hne (howns.only s' h)) m⟩

end Rostrum.Outbound
