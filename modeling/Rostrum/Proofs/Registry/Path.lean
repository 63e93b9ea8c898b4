import Rostrum.Proofs.Registry.Frame
import Rostrum.Proofs.Registry.Ownership

/-!
# The way of a session's candidates through the registry

A candidate takes its way by the current entry of its session and by the queue. A call that neither
removes the waiting candidates of a session nor uses its queue leaves both as they are, as far as the
way depends on them: a current entry that was not stopped stays, with its attempt and its endpoint, and
none becomes ready.
-/

namespace Rostrum

namespace CandidateBuffer
variable {b b' : CandidateBuffer} {s : SessionId} {c : Candidate}

theorem waiting_push : (b.push s c).waiting s = b.waiting s ++ [c] := by
  simp [push, waiting]

theorem pop_eq_some_iff : b.pop s = some (c, b') ↔
    ∃ rest, b.waiting s = c :: rest ∧ b' = ⟨b.queues.put s rest⟩ := by
  unfold pop
  cases h : b.waiting s with
  | nil => simp
  | cons c' rest => simp [and_assoc, eq_comm]

theorem pop_eq_none_iff : b.pop s = none ↔ b.waiting s = [] := by
  unfold pop
  cases h : b.waiting s <;> simp

end CandidateBuffer

/-- What a current entry keeps as long as it is neither stopped nor removed. -/
structure Entry.Continues (e e' : Entry) : Prop where
  attempt : e'.attempt = e.attempt
  running : ¬ e'.stopped
  ready : e.endpointReady → e'.endpointReady
  endpoint : ∀ endpoint, e.endpoint = some endpoint → e'.endpoint = some endpoint

namespace Entry.Continues
variable {e e' e'' : Entry}

theorem refl (h : ¬ e.stopped) : e.Continues e := ⟨rfl, h, id, fun _ => id⟩

theorem trans (h : e.Continues e') (h' : e'.Continues e'') : e.Continues e'' :=
  ⟨h'.attempt.trans h.attempt, h'.running, fun hr => h'.ready (h.ready hr),
    fun endpoint hep => h'.endpoint endpoint (h.endpoint endpoint hep)⟩

end Entry.Continues

namespace Registry

/-- Whether a call removes the waiting candidates of a session because the session comes to an end. -/
def Call.clears (r : Registry) (s : SessionId) : Call → Bool
  | .stop s' => s' = s
  | .remove s' a => s' = s && r.isCurrent s a
  | _ => false

/-- A call that neither clears the queue of a session nor uses it, nor changes an endpoint. -/
structure Call.Leaves (r : Registry) (s : SessionId) (call : Call) : Prop where
  clears : call.clears r s = false
  submit : ∀ c, call ≠ .submit s c
  next : ∀ a, call = .nextCandidate s a → r.next call = r
  endpoint : ∀ s' a endpoint e, call = .setEndpoint s' a endpoint → r.attempt? s' a = some e →
    e.endpoint = none

/-- What such a call leaves as it is. -/
structure Steady (s : SessionId) (r r' : Registry) : Prop where
  queue : r'.buffer.queues.get? s = r.buffer.queues.get? s
  continues : ∀ e, r.entry? s = some e → ¬ e.stopped → ∃ e', r'.entry? s = some e' ∧ e.Continues e'
  ready : ∀ e', r'.entry? s = some e' → e'.endpointReady → ¬ e'.stopped →
    ∃ e, r.entry? s = some e ∧ e.endpointReady ∧ ¬ e.stopped

theorem Steady.refl (s : SessionId) (r : Registry) : Steady s r r where
  queue := rfl
  continues e he hs := ⟨e, he, .refl hs⟩
  ready e he hr hs := ⟨e, he, hr, hs⟩

theorem Steady.trans {s : SessionId} {r r' r'' : Registry} (h : Steady s r r') (h' : Steady s r' r'') :
    Steady s r r'' where
  queue := h'.queue.trans h.queue
  continues e he hs := by
    obtain ⟨e', he', hc⟩ := h.continues e he hs
    obtain ⟨e'', he'', hc'⟩ := h'.continues e' he' hc.running
    exact ⟨e'', he'', hc.trans hc'⟩
  ready e'' he'' hr hs := by
    obtain ⟨e', he', hr', hs'⟩ := h'.ready e'' he'' hr hs
    exact h.ready e' he' hr' hs'

/-- The current entry of a session and its queue are the same. -/
theorem Steady.of_eq {s : SessionId} {r r' : Registry} (he : r'.entry? s = r.entry? s)
    (hq : r'.buffer.queues.get? s = r.buffer.queues.get? s) : Steady s r r' where
  queue := hq
  continues e h hs := ⟨e, he.trans h, .refl hs⟩
  ready e h hr hs := ⟨e, he.symm.trans h, hr, hs⟩

/-- A new entry takes the place of none or of a stopped one. -/
theorem steady_addAttempt {s s' : SessionId} {role : Role} {r r' : Registry} (hq : r'.buffer = r.buffer)
    (hgone : r'.entry? s' = none) (hother : ∀ s, s' ≠ s → r'.entry? s = r.entry? s)
    (hstopped : ∀ e, r.entry? s' = some e → e.stopped) :
    Steady s r (r'.addAttempt s' role).2 := by
  by_cases hs : s' = s
  · subst hs
    refine ⟨by rw [addAttempt_buffer, hq], fun e he hrun => absurd (hstopped e he) hrun, ?_⟩
    intro e' he' hr _
    rw [entry?_addAttempt hgone, if_pos rfl] at he'
    cases he'
    cases hr
  · refine .of_eq ?_ (by rw [addAttempt_buffer, hq])
    rw [entry?_addAttempt hgone, if_neg hs, hother s hs]

namespace WellFormed
variable {r : Registry} (w : r.WellFormed)
include w

/-- A change to an attempt is steady when it is to what the way of candidates does not depend on. -/
theorem steady_modifyAttempt {s s' : SessionId} {a : Attempt} {x : Entry}
    (h : r.attempt? s' a = some x) {f : Entry → Entry} (hf : ¬ x.stopped → x.Continues (f x))
    (hready : (f x).endpointReady = x.endpointReady) (hstopped : (f x).stopped = x.stopped) :
    Steady s r (r.modifyAttempt s' a f) where
  queue := by rw [modifyAttempt_buffer]
  continues e he hs := by
    rw [w.entry?_modifyAttempt h, he]
    by_cases ha : e.attempt = a
    · obtain rfl := w.eq_of_attempt? h (mem_entries_of_current he) ha
      exact ⟨f e, by simp [ha], hf hs⟩
    · exact ⟨e, by simp [ha], .refl hs⟩
  ready e' he' hr hs := by
    rw [w.entry?_modifyAttempt h] at he'
    obtain ⟨e, he, rfl⟩ := Option.map_eq_some_iff.mp he'
    refine ⟨e, he, ?_⟩
    split at hr
    · rename_i ha
      obtain rfl := w.eq_of_attempt? h (mem_entries_of_current he) ha
      rw [if_pos ha] at hs
      exact ⟨hready ▸ hr, hstopped ▸ hs⟩
    · rename_i ha
      rw [if_neg ha] at hs
      exact ⟨hr, hs⟩

/-- Taking out another entry does not change the current one. -/
theorem entry?_takeOut_other {s s' : SessionId} {a : Attempt} {x : Entry} (h : r.attempt? s' a = some x)
    (hne : ∀ e, r.entry? s = some e → e.attempt ≠ a) :
    entry? (r.takeOut s' a) s = r.entry? s := by
  rw [w.entry?_takeOut h]
  cases he : r.entry? s with
  | none => rfl
  | some e => simp [Option.filter_some, hne e he]

theorem entry?_modifyAttempt_other {s s' : SessionId} {a : Attempt} {x : Entry}
    (h : r.attempt? s' a = some x) (hne : ∀ e, r.entry? s = some e → e.attempt ≠ a)
    (f : Entry → Entry) : entry? (r.modifyAttempt s' a f) s = r.entry? s := by
  rw [w.entry?_modifyAttempt h]
  cases he : r.entry? s with
  | none => rfl
  | some e => simp [hne e he]

theorem attempt_ne_of_session_ne {s s' : SessionId} {x e : Entry} (h : r.entry? s' = some x)
    (hs : s' ≠ s) (he : r.entry? s = some e) : e.attempt ≠ x.attempt :=
  fun ha => hs (w.session_eq h he ha.symm)

/-- A stop or a removal does not touch the current entry and the queue of another session. -/
theorem steady_takeOut {s s' : SessionId} {x : Entry} (h : r.entry? s' = some x) (hs : s' ≠ s) :
    Steady s r ((r.takeOut s' x.attempt).clearBuffer s') := by
  refine .of_eq (w.entry?_takeOut_other (w.attempt?_of_current h) ?_) ?_
  · exact fun e he => w.attempt_ne_of_session_ne h hs he
  · exact (Table.get?_erase_of_ne _ hs).trans (by rw [takeOut_buffer])

end WellFormed

theorem Call.Leaves.steady {r : Registry} (w : r.WellFormed) {s : SessionId} {call : Call}
    (h : call.Leaves r s) : Steady s r (r.next call) := by
  obtain ⟨hclears, hsubmit, hnext, hendpoint⟩ := h
  have ho := r.perform_outcome call
  revert ho
  generalize r.answer call = ans
  intro ho
  generalize hr' : r.next call = r' at ho
  -- what touches a queue or takes an entry out does so for another session
  cases ho with
  | roleTaken | endpointUnknown | portUnknown | checked | checkedStopped | drainStopped | applied
  | finishStopped | removedNothing => exact .refl s r
  | entered hnone =>
    exact steady_addAttempt rfl hnone (fun _ _ => rfl) (by simp [hnone])
  | enteredAnew he hst =>
    refine steady_addAttempt (supersede_buffer r _ _) ?_ ?_ ?_
    · exact w.entry?_supersede_self he
    · intro s'' hne
      rw [w.entry?_supersede he, if_neg hne]
    · rintro e hx
      cases he.symm.trans hx
      exact hst
  | endpointSet he =>
    have hnone := hendpoint _ _ _ _ rfl he
    refine w.steady_modifyAttempt he (fun hs => ⟨rfl, hs, id, ?_⟩) rfl rfl
    intro endpoint hep
    rw [hnone] at hep
    cases hep
  | portSet he => exact w.steady_modifyAttempt he (fun hs => ⟨rfl, hs, id, fun _ => id⟩) rfl rfl
  | finished hrun =>
    exact w.steady_modifyAttempt (attempt?_of_running hrun) (fun hs => ⟨rfl, hs, id, fun _ => id⟩) rfl rfl
  | @popped s' a x c buffer hrun hpop =>
    by_cases hs : s' = s
    · subst hs
      rw [← hr', hnext a rfl]
      exact .refl s' r
    · obtain ⟨rest, _, rfl⟩ := CandidateBuffer.pop_eq_some_iff.mp hpop
      exact .of_eq rfl (Table.get?_put_of_ne _ _ hs)
  | @drained s' a x hrun hpop =>
    by_cases hs : s' = s
    · subst hs
      rw [← hr', hnext a rfl]
      exact .refl s' r
    · obtain ⟨he, hst⟩ := (r.running?_eq_some_iff _ _ _).mp hrun
      have hcurrent := w.isCurrent_of_attempt? he hst
      obtain rfl := (w.mem_of_attempt? he).2
      refine .of_eq (w.entry?_modifyAttempt_other he (fun e => ?_) _) ?_
      · exact w.attempt_ne_of_session_ne hcurrent hs
      · exact (Table.get?_erase_of_ne _ hs).trans (by rw [modifyAttempt_buffer])
  | @buffered s' c =>
    have hs : s' ≠ s := fun h => hsubmit c (by rw [h])
    exact .of_eq rfl (Table.get?_put_of_ne _ _ hs)
  | @stoppedNothing s' =>
    have hs : s' ≠ s := by simpa [Call.clears] using hclears
    exact .of_eq rfl (Table.get?_erase_of_ne _ hs)
  | @marked s' x he =>
    have hs : s' ≠ s := by simpa [Call.clears] using hclears
    refine .of_eq (w.entry?_modifyAttempt_other (w.attempt?_of_current he) (fun e => ?_) _) ?_
    · exact w.attempt_ne_of_session_ne he hs
    · exact (Table.get?_erase_of_ne _ hs).trans (by rw [modifyAttempt_buffer])
  | tornDown he => exact w.steady_takeOut he (by simpa [Call.clears] using hclears)
  | @removedCurrent s' x he =>
    refine w.steady_takeOut he ?_
    rintro rfl
    simp [Call.clears, isCurrent, he] at hclears
  | removedSuperseded _ he =>
    refine .of_eq (w.entry?_takeOut_other (w.attempt?_of_superseded he _) ?_) (by rw [takeOut_buffer])
    exact fun e hx => w.ne_of_superseded he hx

theorem queue_next_stop (r : Registry) (s s' : SessionId) :
    (r.next (.stop s')).buffer.queues.get? s =
      if s' = s then none else r.buffer.queues.get? s := by
  have ho := r.perform_outcome (.stop s')
  revert ho
  generalize r.answer (.stop s') = ans
  generalize r.next (.stop s') = r'
  intro ho
  cases ho with
  | stoppedNothing => exact Table.get?_erase _ _ _
  | marked => exact (Table.get?_erase _ _ _).trans (by rw [modifyAttempt_buffer])
  | tornDown => exact (Table.get?_erase _ _ _).trans (by rw [takeOut_buffer])

theorem queue_next_remove {r : Registry} {s : SessionId} {a : Attempt} (h : r.isCurrent s a) :
    (r.next (.remove s a)).buffer.queues.get? s = none := by
  have ho := r.perform_outcome (.remove s a)
  revert ho
  generalize r.answer (.remove s a) = ans
  generalize r.next (.remove s a) = r'
  intro ho
  cases ho with
  | removedNothing hnone =>
    rw [attempt?, if_pos h] at hnone
    simp [isCurrent, hnone] at h
  | removedCurrent => exact Table.get?_erase_self _ _
  | removedSuperseded hno => exact absurd h (by simp [hno])

/-- Stops clear the queue of a session that is among them, and leave those of others. -/
theorem queue_stops (r : Registry) (s : SessionId) (sessions : List SessionId) :
    (r.after (sessions.map .stop)).buffer.queues.get? s =
      if s ∈ sessions then none else r.buffer.queues.get? s := by
  induction sessions generalizing r with
  | nil => rfl
  | cons s' sessions ih =>
    rw [List.map_cons, after_cons, ih, queue_next_stop]
    by_cases hs : s' = s
    · simp [hs]
    · simp [hs, Ne.symm hs]

theorem steady_stops {r : Registry} (w : r.WellFormed) {s : SessionId} {sessions : List SessionId}
    (hs : s ∉ sessions) : Steady s r (r.after (sessions.map .stop)) := by
  induction sessions generalizing r with
  | nil => exact .refl s r
  | cons s' sessions ih =>
    have hne : s' ≠ s := fun h => hs (by simp [h])
    have hleaves : (Call.stop s').Leaves r s :=
      ⟨by simp [Call.clears, hne], nofun, nofun, nofun⟩
    exact (hleaves.steady w).trans (ih (w.next _) fun h => hs (List.mem_cons_of_mem _ h))

section Answers
variable {r : Registry} {s : SessionId} {a : Attempt} {c : Candidate}

theorem next_of_buffered (h : r.answer (.submit s c) = .destination .buffered) :
    r.next (.submit s c) = { r with buffer := r.buffer.push s c } ∧
      ∀ e, r.entry? s = some e → e.endpointReady → ¬ e.stopped → e.endpoint = none := by
  have ho := r.perform_outcome (.submit s c)
  rw [h] at ho
  generalize r.next _ = r' at *
  cases ho with
  | buffered hno => exact ⟨rfl, hno⟩

theorem next_of_applied {c' : Candidate} {endpoint : Endpoint}
    (h : r.answer (.submit s c) = .destination (.apply endpoint c')) :
    r.next (.submit s c) = r ∧ c' = c ∧ ∃ e, r.entry? s = some e ∧ e.endpointReady ∧ ¬ e.stopped ∧
      e.endpoint = some endpoint := by
  have ho := r.perform_outcome (.submit s c)
  rw [h] at ho
  generalize r.next _ = r' at *
  cases ho with
  | applied he hready hs hep => exact ⟨rfl, rfl, _, he, hready, hs, hep⟩

theorem next_of_popped (h : r.answer (.nextCandidate s a) = .candidate (some c)) :
    ∃ e rest, r.running? s a = some e ∧ r.buffer.waiting s = c :: rest ∧
      r.next (.nextCandidate s a) = { r with buffer := ⟨r.buffer.queues.put s rest⟩ } := by
  have ho := r.perform_outcome (.nextCandidate s a)
  rw [h] at ho
  generalize r.next _ = r' at *
  cases ho with
  | popped hrun hpop =>
    obtain ⟨rest, hwaiting, rfl⟩ := CandidateBuffer.pop_eq_some_iff.mp hpop
    exact ⟨_, rest, hrun, hwaiting, rfl⟩

theorem next_of_drained (h : r.answer (.nextCandidate s a) = .candidate none) :
    ∃ e, r.running? s a = some e ∧ r.buffer.waiting s = [] ∧
      r.next (.nextCandidate s a) =
        (r.modifyAttempt s a fun e => { e with endpointReady := true }).clearBuffer s := by
  have ho := r.perform_outcome (.nextCandidate s a)
  rw [h] at ho
  generalize r.next _ = r' at *
  cases ho with
  | drained hrun hpop => exact ⟨_, hrun, CandidateBuffer.pop_eq_none_iff.mp hpop, rfl⟩

end Answers

end Registry

end Rostrum
