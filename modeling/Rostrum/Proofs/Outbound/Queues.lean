import Rostrum.Broadcast.Outbound
import Rostrum.Proofs.Table

/-!
# Operations on outbound queues

A queue serves the session that registered for it, and no other. What a send or a read does is given
once by its cases (`Sends`, `Receives`); everything else about queues is derived from them.
-/

namespace Rostrum.Outbound

/-- What waits in a queue. -/
def queued (o : Outbound) (q : QueueId) : List ServerMessage :=
  ((o.boxes.get? q).map Mailbox.messages).getD []

/-- The queue of a session has no room left, and its reader is still there. -/
def IsFull (o : Outbound) (s : SessionId) : Prop :=
  ∃ q waiting, o.clients.get? s = some q ∧ o.boxes.get? q = some ⟨waiting, true⟩ ∧
    o.capacity ≤ waiting.length

/-- What holds of queues at all times. -/
structure Sound (o : Outbound) : Prop where
  distinct : o.clients.Distinct
  one_client : ∀ s s' q, o.clients.get? s = some q → o.clients.get? s' = some q → s = s'
  client_made : ∀ s q, o.clients.get? s = some q → q.number < o.nextQueue
  box_made : ∀ q box, o.boxes.get? q = some box → q.number < o.nextQueue
  bounded : ∀ q box, o.boxes.get? q = some box → box.messages.length ≤ o.capacity

/-- What becomes of a message that is sent. -/
inductive Sends (o : Outbound) (s : SessionId) (m : ServerMessage) : Bool × Outbound → Prop where
  | queued {q : QueueId} {waiting : List ServerMessage} : o.clients.get? s = some q →
      o.boxes.get? q = some ⟨waiting, true⟩ → waiting.length < o.capacity →
      Sends o s m (true, { o with boxes := o.boxes.put q ⟨waiting ++ [m], true⟩ })
  | full : o.IsFull s → Sends o s m (false, o.remove s)
  /-- The session has no queue, or nobody reads it. -/
  | lost : (∀ q waiting, o.clients.get? s = some q → o.boxes.get? q ≠ some ⟨waiting, true⟩) →
      Sends o s m (false, o)

/-- What a reader finds. -/
inductive Receives (o : Outbound) (q : QueueId) : Option (Received × Outbound) → Prop where
  | gone : (∀ waiting, o.boxes.get? q ≠ some ⟨waiting, true⟩) → Receives o q none
  | message {m : ServerMessage} {rest : List ServerMessage} :
      o.boxes.get? q = some ⟨m :: rest, true⟩ →
      Receives o q (some (.message m, { o with boxes := o.boxes.put q ⟨rest, true⟩ }))
  | nothing : o.boxes.get? q = some ⟨[], true⟩ →
      Receives o q (some (if o.hasSender q then .empty else .closed, o))

variable (o : Outbound) (s : SessionId) (m : ServerMessage) (q : QueueId)

theorem queued_of_get? {o : Outbound} {q : QueueId} {waiting : List ServerMessage} {isOpen : Bool}
    (h : o.boxes.get? q = some ⟨waiting, isOpen⟩) : o.queued q = waiting := by
  simp [queued, h]

theorem send_sends : Sends o s m (o.send s m) := by
  unfold send
  cases hq : o.clients.get? s with
  | none => exact .lost fun q waiting h => by rw [hq] at h; cases h
  | some q =>
    dsimp only
    cases hb : o.boxes.get? q with
    | none =>
      refine .lost fun q' waiting h => ?_
      cases hq.symm.trans h
      rw [hb]
      nofun
    | some box =>
      obtain ⟨waiting, isOpen⟩ := box
      cases isOpen with
      | false =>
        refine .lost fun q' waiting h => ?_
        cases hq.symm.trans h
        rw [hb]
        nofun
      | true =>
        by_cases hfull : o.capacity ≤ waiting.length
        · simpa [hfull] using Sends.full (m := m) ⟨q, waiting, hq, hb, hfull⟩
        · simpa [hfull] using Sends.queued (m := m) hq hb (Nat.lt_of_not_le hfull)

theorem receive_receives : Receives o q (o.receive q) := by
  unfold receive
  cases hb : o.boxes.get? q with
  | none => exact .gone fun waiting => by rw [hb]; nofun
  | some box =>
    obtain ⟨waiting, isOpen⟩ := box
    cases isOpen with
    | false => exact .gone fun waiting => by rw [hb]; nofun
    | true =>
      cases waiting with
      | nil => exact .nothing hb
      | cons m rest => exact .message hb

theorem get?_boxes_close (q' : QueueId) : (o.close q).boxes.get? q' =
    if q = q' then (o.boxes.get? q).map fun _ => ⟨[], false⟩ else o.boxes.get? q' :=
  Table.get?_modify _ _ _ _

/-- A session without a queue gets no message. -/
theorem send_of_unregistered {o : Outbound} {s : SessionId} (h : o.clients.get? s = none) :
    o.send s m = (false, o) := by
  simp [send, h]

theorem send_of_full {o : Outbound} {s : SessionId} (h : o.IsFull s) :
    o.send s m = (false, o.remove s) := by
  obtain ⟨q, waiting, hq, hb, hfull⟩ := h
  simp [send, hq, hb, hfull]

/-! ## Soundness -/

theorem sound_ofSize (size : Nat) : (ofSize size).Sound where
  distinct := Table.distinct_empty
  one_client _ _ _ h := by cases h
  client_made _ _ h := by cases h
  box_made _ _ h := by cases h
  bounded _ _ h := by cases h

namespace Sound
variable {o : Outbound} (w : o.Sound) {s s' : SessionId} {q q' : QueueId}
include w

theorem hasSender_iff : o.hasSender q ↔ ∃ s, o.clients.get? s = some q := by
  rw [← Table.mem_contents_iff w.distinct q]
  simp [hasSender, Table.contents]

theorem register (s : SessionId) : (o.register s).2.Sound := by
  have hclient : ∀ s' q, (o.register s).2.clients.get? s' = some q →
      (s = s' ∧ q = ⟨o.nextQueue⟩) ∨ (s ≠ s' ∧ o.clients.get? s' = some q) := by
    intro s' q h
    rw [Outbound.register, Table.get?_put] at h
    split at h
    · rename_i hs
      exact .inl ⟨hs, (Option.some.inj h).symm⟩
    · rename_i hs
      exact .inr ⟨hs, h⟩
  have hbox : ∀ q box, (o.register s).2.boxes.get? q = some box →
      (q = ⟨o.nextQueue⟩ ∧ box = {}) ∨ o.boxes.get? q = some box := by
    intro q box h
    rw [Outbound.register, Table.get?_put] at h
    split at h
    · rename_i hq
      exact .inl ⟨hq.symm, (Option.some.inj h).symm⟩
    · exact .inr h
  refine ⟨Table.distinct_put w.distinct _ _, ?_, ?_, ?_, ?_⟩
  · intro s₁ s₂ q h₁ h₂
    rcases hclient s₁ q h₁ with ⟨rfl, hq⟩ | ⟨_, h₁⟩ <;> rcases hclient s₂ q h₂ with ⟨rfl, hq'⟩ | ⟨_, h₂⟩
    · rfl
    · have := w.client_made _ _ h₂
      simp [hq] at this
    · have := w.client_made _ _ h₁
      simp [hq'] at this
    · exact w.one_client _ _ _ h₁ h₂
  · intro s' q h
    rcases hclient s' q h with ⟨_, rfl⟩ | ⟨_, h⟩
    · exact Nat.lt_succ_self _
    · exact Nat.lt_succ_of_lt (w.client_made _ _ h)
  · intro q box h
    rcases hbox q box h with ⟨rfl, _⟩ | h
    · exact Nat.lt_succ_self _
    · exact Nat.lt_succ_of_lt (w.box_made _ _ h)
  · intro q box h
    rcases hbox q box h with ⟨_, rfl⟩ | h
    · exact Nat.zero_le _
    · exact w.bounded _ _ h

theorem remove (s : SessionId) : (o.remove s).Sound := by
  have hclient : ∀ s' q, (o.remove s).clients.get? s' = some q → o.clients.get? s' = some q := by
    intro s' q h
    rw [Outbound.remove, Table.get?_erase] at h
    split at h
    · cases h
    · exact h
  exact ⟨Table.distinct_erase w.distinct s,
    fun s₁ s₂ q h₁ h₂ => w.one_client _ _ _ (hclient _ _ h₁) (hclient _ _ h₂),
    fun s' q h => w.client_made _ _ (hclient _ _ h), w.box_made, w.bounded⟩

/-- Filling a queue that exists up to its capacity keeps everything sound. -/
theorem put_box {box box' : Mailbox} (h : o.boxes.get? q = some box)
    (hlen : box'.messages.length ≤ o.capacity) : { o with boxes := o.boxes.put q box' }.Sound := by
  have hbox : ∀ q' x, (o.boxes.put q box').get? q' = some x →
      (q = q' ∧ x = box') ∨ o.boxes.get? q' = some x := by
    intro q' x hx
    rw [Table.get?_put] at hx
    split at hx
    · rename_i hq
      exact .inl ⟨hq, (Option.some.inj hx).symm⟩
    · exact .inr hx
  refine ⟨w.distinct, w.one_client, w.client_made, ?_, ?_⟩
  · intro q' x hx
    rcases hbox q' x hx with ⟨rfl, _⟩ | hx
    · exact w.box_made _ _ h
    · exact w.box_made _ _ hx
  · intro q' x hx
    rcases hbox q' x hx with ⟨_, rfl⟩ | hx
    · exact hlen
    · exact w.bounded _ _ hx

theorem send (s : SessionId) (m : ServerMessage) : (o.send s m).2.Sound := by
  have h := send_sends o s m
  generalize o.send s m = result at h
  cases h with
  | queued _ hb hroom =>
    refine w.put_box hb ?_
    rw [List.length_append]
    exact hroom
  | full _ => exact w.remove s
  | lost _ => exact w

theorem receive {found : Received} {o' : Outbound} (h : o.receive q = some (found, o')) : o'.Sound := by
  have hr := receive_receives o q
  rw [h] at hr
  cases hr with
  | message hb => exact w.put_box hb (Nat.le_of_succ_le (w.bounded _ _ hb))
  | nothing _ => exact w

theorem close (q : QueueId) : (o.close q).Sound := by
  unfold Outbound.close
  cases hb : o.boxes.get? q with
  | none => rwa [Table.modify_of_get?_eq_none hb]
  | some box =>
    rw [Table.modify_of_get? hb]
    exact w.put_box hb (Nat.zero_le _)

end Sound

/-! ## What a session does not notice -/

section Beside
variable {o : Outbound} {s s' : SessionId} {q : QueueId}

/-- A send changes no queue but the one of its session. -/
theorem boxes_send (h : o.clients.get? s ≠ some q) (m : ServerMessage) :
    (o.send s m).2.boxes.get? q = o.boxes.get? q := by
  have hs := send_sends o s m
  generalize o.send s m = result at hs
  cases hs with
  | queued hq _ _ =>
    refine Table.get?_put_of_ne _ _ ?_
    rintro rfl
    exact h hq
  | full _ => rfl
  | lost _ => rfl

/-- A send to one session leaves the registration of the others. -/
theorem clients_send (hne : s ≠ s') (m : ServerMessage) :
    (o.send s m).2.clients.get? s' = o.clients.get? s' := by
  have hs := send_sends o s m
  generalize o.send s m = result at hs
  cases hs with
  | queued _ _ _ => rfl
  | full _ => exact Table.get?_erase_of_ne _ hne
  | lost _ => rfl

/-- No send brings a session a queue. -/
theorem clients_send_cases (s : SessionId) (m : ServerMessage) (s' : SessionId) :
    (o.send s m).2.clients.get? s' = o.clients.get? s' ∨ (o.send s m).2.clients.get? s' = none := by
  have hs := send_sends o s m
  generalize o.send s m = result at hs
  cases hs with
  | queued _ _ _ => exact .inl rfl
  | full _ =>
    rw [remove, Table.get?_erase]
    split
    · exact .inr rfl
    · exact .inl rfl
  | lost _ => exact .inl rfl

end Beside

end Rostrum.Outbound
