import Rostrum.Proofs.Registry.Frame

/-!
# What a stop leaves to a negotiation

A stop that comes while a negotiation is under way only marks its entry. The mark is never lost: the
entry stays stopped and pending until it is handed out, and then it is handed out stopped and pending.
When the session begins anew, the marked entry stands apart, and no call that names its attempt reaches
the new entry of the session or the candidates that wait for it.
-/

namespace Rostrum.Registry

/-- A stop finds the entry of an attempt whose negotiation is under way. -/
def Deed.Marks (d : Deed) (a : Attempt) : Prop :=
  ∃ s e, d.call = .stop s ∧ d.before.entry? s = some e ∧ e.phase = .pending ∧ e.attempt = a

/-- Whether an attempt was marked by one of the calls made. -/
def Marked (log : List Deed) (a : Attempt) : Prop := ∃ d ∈ log, d.Marks a

theorem marked_append {log more : List Deed} {a : Attempt} :
    Marked (log ++ more) a ↔ Marked log a ∨ Marked more a := by
  simp only [Marked, List.mem_append, or_and_right, exists_or]

theorem log_append_log (r : Registry) (calls more : List Call) :
    r.log (calls ++ more) = r.log calls ++ (r.after calls).log more := by
  induction calls generalizing r with
  | nil => rfl
  | cons call rest ih => exact congrArg (List.cons _) (ih (r.next call))

/-! ## The mark -/

theorem Deed.Marks.entry {d : Deed} {a : Attempt} (h : d.Marks a) :
    ∃ e ∈ d.before.entries, e.attempt = a := by
  obtain ⟨s, e, _, he, _, ha⟩ := h
  exact ⟨e, mem_entries_of_current he, ha⟩

theorem Deed.Marks.handedOut {d : Deed} {a : Attempt} (h : d.Marks a) : d.handedOut = [] := by
  obtain ⟨before, call⟩ := d
  obtain ⟨s, e, rfl, he, hp, _⟩ := h
  rw [handedOut_stop]
  rcases before.stop_cases s with ⟨hnone, _⟩ | ⟨_, _, _, hr⟩ | ⟨x, hx, hready, _⟩
  · cases hnone.symm.trans he
  · rw [hr]
  · cases hx.symm.trans he
    cases hready.symm.trans hp

theorem ready_of_stop {r : Registry} {s : SessionId} {e : Entry}
    (h : e ∈ (Deed.mk r (.stop s)).handedOut) : e.phase = .ready := by
  rw [Deed.handedOut_stop] at h
  rcases r.stop_cases s with ⟨_, hr⟩ | ⟨_, _, _, hr⟩ | ⟨x, _, hready, hr⟩ <;> rw [hr] at h
  · cases h
  · cases h
  · obtain rfl := List.mem_singleton.mp h
    exact hready

theorem ready_of_stops {r : Registry} {sessions : List SessionId} {e : Entry}
    (h : e ∈ handedOut (r.log (sessions.map .stop))) : e.phase = .ready := by
  induction sessions generalizing r with
  | nil => cases h
  | cons s left ih =>
    rcases List.mem_append.mp h with h | h
    · exact ready_of_stop h
    · exact ih h

namespace WellFormed
variable {r : Registry} (w : r.WellFormed)
include w

theorem stopped_of_marks {call : Call} {a : Attempt} (h : (Deed.mk r call).Marks a) {e : Entry}
    (he : e ∈ (r.next call).entries) (ha : e.attempt = a) : e.stopped := by
  obtain ⟨s, x, rfl, hx, hp, rfl⟩ := h
  have hmarked : (r.next (.stop s)).attempt? s x.attempt = some { x with stopped := true } := by
    rw [next_stop]
    rcases r.stop_cases s with ⟨hnone, _⟩ | ⟨y, hy, _, hr⟩ | ⟨y, hy, hready, _⟩
    · cases hnone.symm.trans hx
    · cases hy.symm.trans hx
      rw [hr]
      exact w.modifies_own (w.attempt?_of_current hx) fun _ => rfl
    · cases hy.symm.trans hx
      cases hready.symm.trans hp
  obtain rfl := (w.next _).eq_of_attempt? hmarked he ha
  rfl

/-- Stops that mark an attempt leave its entry in the registry, with its negotiation under way. -/
theorem pending_of_marked {sessions : List SessionId} {a : Attempt}
    (h : Marked (r.log (sessions.map .stop)) a) :
    ∃ e ∈ (r.after (sessions.map .stop)).entries, e.attempt = a ∧ e.phase = .pending := by
  induction sessions generalizing r with
  | nil =>
    obtain ⟨_, hd, _⟩ := h
    cases hd
  | cons s left ih =>
    obtain ⟨d, hd, hmarks⟩ := h
    rcases List.mem_cons.mp hd with rfl | hd
    · obtain ⟨s', e, _, he, hp, rfl⟩ := hmarks
      have hstops : ∀ call ∈ (s :: left).map Call.stop, call.attempt? ≠ some e.attempt := by
        intro call hcall
        obtain ⟨_, _, rfl⟩ := List.mem_map.mp hcall
        exact fun hnames => by cases hnames
      obtain ⟨e', he', hev⟩ := w.keeps_after (w.attempt?_of_current he) hp hstops
      obtain ⟨hm, ha⟩ := (w.after _).mem_of_attempt? he'
      refine ⟨e', hm, ha, ?_⟩
      rcases hev with rfl | rfl <;> exact hp
    · exact ih (w.next (.stop s)) ⟨d, hd, hmarks⟩

/-- What stops leave of a session that is among them is marked. -/
theorem stopped_of_stops {sessions : List SessionId} {s : SessionId} (hs : s ∈ sessions) {e : Entry}
    (he : entry? (r.after (sessions.map .stop)) s = some e) : e.stopped := by
  induction sessions generalizing r with
  | nil => cases hs
  | cons s' left ih =>
    by_cases hleft : s ∈ left
    · exact ih (w.next (.stop s')) hleft he
    · obtain rfl := (List.mem_cons.mp hs).resolve_right hleft
      have hno : ∀ call ∈ left.map Call.stop, ∀ s role, call ≠ .register s role := by
        intro call hcall
        obtain ⟨_, _, rfl⟩ := List.mem_map.mp hcall
        exact fun _ _ h => by cases h
      obtain ⟨x, hx, hev⟩ := (w.next (.stop s)).current_after hno he
      exact hev.stopped (w.stopped_of_stop hx)

/-- Stops leave nothing running that was entered for a session that is among them. -/
theorem issued_stopped_of_stops {sessions : List SessionId} {s : SessionId} (hs : s ∈ sessions)
    {log : List Deed} (hac : Accounted log (r.after (sessions.map .stop))) {e : Entry}
    (he : e ∈ (r.after (sessions.map .stop)).entries) (hissued : (s, e.attempt) ∈ issued log) :
    e.stopped := by
  have w' := hac.wellFormed
  rcases hac.stands_of_mem hissued (Multiset.mem_map_of_mem _ he) with ⟨role, x, hx, ha⟩ | ⟨x, hx, ha⟩
  · obtain rfl := w'.eq_of_attempt_eq (mem_entries_of_table hx) he ha
    exact w.stopped_of_stops hs (w'.entry?_of_table hx)
  · obtain rfl := w'.eq_of_attempt_eq (mem_entries_of_superseded hx) he ha
    exact w'.superseded_stopped _ _ hx

/-- An attempt whose entry is stopped, if there is one, may not go on. -/
theorem running?_of_stopped {s : SessionId} {a : Attempt}
    (hstopped : ∀ e ∈ r.entries, e.attempt = a → e.stopped) : r.running? s a = none := by
  rw [Option.eq_none_iff_forall_ne_some]
  intro e he
  obtain ⟨hattempt, hno⟩ := (r.running?_eq_some_iff s a e).mp he
  obtain ⟨hm, ha⟩ := w.mem_of_attempt? hattempt
  exact hno (hstopped e hm ha)

/-- An attempt that was stopped stays so, whatever is done. -/
theorem stopped_after (calls : List Call) {a : Attempt} (hle : a.number ≤ r.lastAttempt)
    (hstopped : ∀ e ∈ r.entries, e.attempt = a → e.stopped) :
    ∀ e ∈ (r.after calls).entries, e.attempt = a → e.stopped := by
  rintro e he rfl
  obtain ⟨x, hx, hev⟩ := (w.after_changes calls).origin w he hle
  exact hev.stopped (hstopped x hx hev.attempt.symm)

end WellFormed

theorem stopped_of_marked {calls : List Call} {a : Attempt} (h : Marked (log {} calls) a) :
    a.number ≤ (({} : Registry).after calls).lastAttempt ∧
      ∀ e ∈ (({} : Registry).after calls).entries, e.attempt = a → e.stopped := by
  induction calls using List.reverseRecOn with
  | nil =>
    obtain ⟨_, hd, _⟩ := h
    cases hd
  | append_singleton calls call ih =>
    have w := wellFormed_empty.after calls
    have hlast := (w.next_changes call).lastAttempt_le
    rw [log_append, marked_append] at h
    rw [after_append]
    rcases h with h | ⟨d, hd, hmarks⟩
    · obtain ⟨hle, hold⟩ := ih h
      refine ⟨Nat.le_trans hle hlast, fun e he ha => ?_⟩
      obtain ⟨x, hx, hev⟩ := (w.next_changes call).origin w he (ha ▸ hle)
      exact hev.stopped (hold x hx (hev.attempt.symm.trans ha))
    · obtain rfl := List.mem_singleton.mp hd
      obtain ⟨x, hx, hxa⟩ := hmarks.entry
      refine ⟨Nat.le_trans (hxa ▸ w.attempt_le x hx) hlast, fun e he ha => ?_⟩
      exact w.stopped_of_marks hmarks he ha

/-- An entry that is modified is the old one with the change made to it, and all others stay. -/
theorem WellFormed.mem_modifyAttempt {r : Registry} (w : r.WellFormed) {s : SessionId} {a : Attempt}
    {e : Entry} (h : r.attempt? s a = some e) {f : Entry → Entry} {e' : Entry}
    (he' : e' ∈ (r.modifyAttempt s a f).entries) : e' ∈ r.entries ∨ e ∈ r.entries ∧ e' = f e := by
  obtain ⟨rest, hold, hnew⟩ := w.entries_modifyAttempt h f
  rw [hnew] at he'
  rcases Multiset.mem_cons.mp he' with rfl | hm
  · exact Or.inr ⟨(w.mem_of_attempt? h).1, rfl⟩
  · exact Or.inl (hold ▸ Multiset.mem_cons_of_mem hm)

/-- An entry that is stopped after a call was stopped before, or the call marks it. -/
theorem WellFormed.stopped_origin {r : Registry} (w : r.WellFormed) {call : Call} {e : Entry}
    (he : e ∈ (r.next call).entries) (hs : e.stopped) :
    (Deed.mk r call).Marks e.attempt ∨ ∃ x ∈ r.entries, x.attempt = e.attempt ∧ x.stopped := by
  have hkept : ∀ {s a x} {f : Entry → Entry}, r.attempt? s a = some x →
      (f x).attempt = x.attempt → ((f x).stopped → x.stopped) →
      e ∈ (r.modifyAttempt s a f).entries → ∃ x ∈ r.entries, x.attempt = e.attempt ∧ x.stopped := by
    intro s a x f hx ha hf he
    rcases w.mem_modifyAttempt hx he with hold | ⟨hm, rfl⟩
    · exact ⟨e, hold, rfl, hs⟩
    · exact ⟨x, hm, ha.symm, hf hs⟩
  have hout : ∀ {s a x}, r.attempt? s a = some x → e ∈ (r.takeOut s a).entries →
      ∃ x ∈ r.entries, x.attempt = e.attempt ∧ x.stopped := by
    intro s a x hx he
    exact ⟨e, w.entries_takeOut hx ▸ Multiset.mem_cons_of_mem he, rfl, hs⟩
  have hnew : ∀ {r' : Registry} {s : SessionId} {role : Role}, r'.WellFormed → r'.entry? s = none →
      r'.entries = r.entries → e ∈ (r'.addAttempt s role).2.entries →
      ∃ x ∈ r.entries, x.attempt = e.attempt ∧ x.stopped := by
    intro r' s role w' hnone hsame he
    rw [w'.entries_addAttempt hnone, hsame] at he
    rcases Multiset.mem_cons.mp he with rfl | hold
    · cases hs
    · exact ⟨e, hold, rfl, hs⟩
  have ho := r.perform_outcome call
  revert ho he
  generalize r.answer call = ans
  generalize r.next call = r'
  intro he ho
  cases ho with
  | roleTaken | endpointUnknown | portUnknown | checked | checkedStopped | drainStopped | applied
  | finishStopped | removedNothing | popped | buffered | stoppedNothing =>
    exact Or.inr ⟨e, he, rfl, hs⟩
  | entered hnone => exact Or.inr (hnew w hnone rfl he)
  | enteredAnew hx hstopped =>
    exact Or.inr (hnew (w.supersede hx hstopped) (w.entry?_supersede_self hx)
      (w.entries_supersede hx) he)
  | endpointSet hx | portSet hx => exact Or.inr (hkept hx rfl id he)
  | drained hrun | finished hrun => exact Or.inr (hkept (attempt?_of_running hrun) rfl id he)
  | marked hx hp =>
    rcases w.mem_modifyAttempt (w.attempt?_of_current hx) he with hold | ⟨_, rfl⟩
    · exact Or.inr ⟨e, hold, rfl, hs⟩
    · exact Or.inl ⟨_, _, rfl, hx, hp, rfl⟩
  | tornDown hx | removedCurrent hx => exact Or.inr (hout (w.attempt?_of_current hx) he)
  | removedSuperseded _ hx => exact Or.inr (hout (w.attempt?_of_superseded hx _) he)

/-- Only a stop that found its negotiation under way stops an entry. -/
theorem marked_of_stopped {calls : List Call} {e : Entry}
    (he : e ∈ (({} : Registry).after calls).entries) (hs : e.stopped) :
    Marked (log {} calls) e.attempt := by
  induction calls using List.reverseRecOn generalizing e with
  | nil => cases Multiset.notMem_zero e he
  | append_singleton calls call ih =>
    rw [after_append] at he
    rw [log_append, marked_append]
    rcases (wellFormed_empty.after calls).stopped_origin he hs with hmarks | ⟨x, hx, ha, hstopped⟩
    · exact Or.inr ⟨_, List.mem_singleton_self _, hmarks⟩
    · exact Or.inl (ha ▸ ih hx hstopped)

/-- The entry of a marked attempt is handed out stopped, and its negotiation was still under way. -/
theorem handedOut_of_marked {calls : List Call} {a : Attempt} (h : Marked (log {} calls) a) {e : Entry}
    (he : e ∈ handedOut (log {} calls)) (ha : e.attempt = a) : e.stopped ∧ e.phase = .pending := by
  induction calls using List.reverseRecOn with
  | nil => cases he
  | append_singleton calls call ih =>
    have hac := accounted calls
    rw [log_append, marked_append] at h
    rw [log_append, handedOut_append] at he
    rcases List.mem_append.mp he with hold | hnow
    · refine ih (h.resolve_right ?_) hold
      rintro ⟨d, hd, hmarks⟩
      obtain rfl := List.mem_singleton.mp hd
      obtain ⟨x, hx, hxa⟩ := hmarks.entry
      exact hac.not_stored_of_handedOut hx hold (hxa.trans ha.symm)
    · have hmarked : Marked (log {} calls) a := by
        refine h.resolve_right ?_
        rintro ⟨d, hd, hmarks⟩
        obtain rfl := List.mem_singleton.mp hd
        rw [hmarks.handedOut] at hnow
        cases hnow
      have hm := (hac.wellFormed.handedOut_next hnow).1
      have hs := (stopped_of_marked hmarked).2 e hm ha
      exact ⟨hs, hac.wellFormed.stopped_pending e hm hs⟩

/-! ## Apart from the new negotiation -/

/-- The current entries and the waiting candidates are the same. -/
structure Untouched (r r' : Registry) : Prop where
  presenters : r'.presenters = r.presenters
  viewers : r'.viewers = r.viewers
  buffer : r'.buffer = r.buffer

theorem Untouched.refl (r : Registry) : Untouched r r := ⟨rfl, rfl, rfl⟩

theorem Untouched.trans {r r' r'' : Registry} (h : Untouched r r') (h' : Untouched r' r'') :
    Untouched r r'' :=
  ⟨h'.presenters.trans h.presenters, h'.viewers.trans h.viewers, h'.buffer.trans h.buffer⟩

theorem Untouched.entry_eq {r r' : Registry} (h : Untouched r r') (s : SessionId) :
    r'.entry? s = r.entry? s := by
  unfold Registry.entry?
  rw [h.presenters, h.viewers]

theorem Untouched.isCurrent {r r' : Registry} (h : Untouched r r') (s : SessionId) (a : Attempt) :
    r'.isCurrent s a = r.isCurrent s a := by
  unfold Registry.isCurrent
  rw [h.entry_eq]

section Apart
variable {r : Registry} {s : SessionId} {a : Attempt} (hapart : r.isCurrent s a = false)
include hapart

theorem untouched_modifyAttempt (f : Entry → Entry) : Untouched r (r.modifyAttempt s a f) := by
  unfold modifyAttempt
  rw [hapart]
  exact ⟨rfl, rfl, rfl⟩

theorem untouched_takeOut : Untouched r (r.takeOut s a) := by
  unfold takeOut
  rw [hapart]
  exact ⟨rfl, rfl, rfl⟩

/-- An attempt that is not the current one of its session was stopped. -/
theorem WellFormed.running?_of_apart (w : r.WellFormed) : r.running? s a = none := by
  rw [Option.eq_none_iff_forall_ne_some]
  intro e he
  obtain ⟨hattempt, hs⟩ := (r.running?_eq_some_iff s a e).mp he
  unfold attempt? at hattempt
  rw [hapart] at hattempt
  exact hs (w.superseded_stopped a e hattempt)

end Apart

namespace WellFormed

theorem untouched_next {r : Registry} (w : r.WellFormed) {call : Call} {a : Attempt}
    (ha : call.attempt? = some a) (hapart : r.isCurrent call.session a = false) :
    Untouched r (r.next call) := by
  have hrunning := w.running?_of_apart hapart
  have ho := r.perform_outcome call
  revert ho
  generalize r.answer call = ans
  generalize r.next call = r'
  intro ho
  cases ho with
  | endpointSet | portSet =>
    cases ha
    exact untouched_modifyAttempt hapart _
  | endpointUnknown | portUnknown | checked | checkedStopped | drainStopped | finishStopped
  | removedNothing => exact .refl r
  | popped he | drained he | finished he =>
    cases ha
    cases hrunning.symm.trans he
  | removedCurrent he =>
    cases ha
    simp [isCurrent, Call.session, he] at hapart
  | removedSuperseded =>
    cases ha
    exact untouched_takeOut hapart
  | _ => cases ha

/-- Calls that name an attempt which is not current leave its session to the new negotiation. -/
theorem untouched_after {r : Registry} (w : r.WellFormed) {s : SessionId} {a : Attempt}
    (hapart : r.isCurrent s a = false) {calls : List Call}
    (hcalls : ∀ call ∈ calls, call.attempt? = some a ∧ call.session = s) :
    Untouched r (r.after calls) := by
  induction calls generalizing r with
  | nil => exact .refl r
  | cons call rest ih =>
    obtain ⟨⟨ha, rfl⟩, hrest⟩ := List.forall_mem_cons.mp hcalls
    have hnext := w.untouched_next ha hapart
    exact hnext.trans (ih (w.next call) ((hnext.isCurrent _ a).trans hapart) hrest)

end WellFormed

end Rostrum.Registry
