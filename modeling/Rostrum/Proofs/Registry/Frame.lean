import Rostrum.Proofs.Registry.Ownership

/-!
# What a call leaves alone

The entry of a negotiation that is under way is changed by the calls that name its attempt, and by
nothing else: a stop of its session marks it, and every other call leaves it as it is, also when its
session begins anew. The calls that name an attempt do to its entry what they say.
-/

namespace Rostrum.Registry

namespace WellFormed
variable {r : Registry} (w : r.WellFormed)
include w

theorem attempt_ne_new {s : SessionId} {a : Attempt} {e : Entry} (h : r.attempt? s a = some e) :
    a ≠ ⟨r.lastAttempt + 1⟩ := by
  rintro rfl
  rw [w.attempt?_eq_none_of_new s] at h
  cases h

theorem keeps_other {s s' : SessionId} {a a' : Attempt} {e e' : Entry} (h : r.attempt? s a = some e)
    (h' : r.attempt? s' a' = some e') {f : Entry → Entry} (hf : ∀ x, (f x).attempt = x.attempt)
    (hne : a' ≠ a) : (r.modifyAttempt s' a' f).attempt? s a = some e := by
  have ha := (w.mem_of_attempt? h).2
  rw [w.attempt?_modifyAttempt h' hf, h, Option.map_some, if_neg]
  rw [ha]
  exact Ne.symm hne

theorem modifies_own {s : SessionId} {a : Attempt} {e : Entry} (h : r.attempt? s a = some e)
    {f : Entry → Entry} (hf : ∀ x, (f x).attempt = x.attempt) :
    (r.modifyAttempt s a f).attempt? s a = some (f e) := by
  have ha := (w.mem_of_attempt? h).2
  rw [w.attempt?_modifyAttempt h hf, h, Option.map_some, if_pos ha]

/-- Calls that do not name a pending attempt leave its entry, up to the mark of a stop. -/
theorem keeps_next {s : SessionId} {a : Attempt} {e : Entry} (h : r.attempt? s a = some e)
    (hp : e.phase = .pending) {call : Call} (hne : call.attempt? ≠ some a) :
    ∃ e', (r.next call).attempt? s a = some e' ∧ (e' = e ∨ e' = { e with stopped := true }) := by
  have ho := r.perform_outcome call
  revert ho
  generalize r.answer call = ans
  generalize r.next call = r'
  intro ho
  have hne' : ∀ {a'}, call.attempt? = some a' → a' ≠ a := fun hc => by
    rintro rfl
    exact hne hc
  cases ho with
  | roleTaken | endpointUnknown | portUnknown | checked | checkedStopped | drainStopped | applied
  | finishStopped | removedNothing | popped | buffered | stoppedNothing => exact ⟨e, h, Or.inl rfl⟩
  | entered he =>
    exact ⟨e, (attempt?_addAttempt he _ _ (w.attempt_ne_new h)).trans h, Or.inl rfl⟩
  | @enteredAnew s' role x he hs =>
    have hnone := w.entry?_supersede_self he
    have hnew : a ≠ ⟨(r.supersede s' x).lastAttempt + 1⟩ := by
      rw [supersede_lastAttempt]
      exact w.attempt_ne_new h
    refine ⟨e, ?_, Or.inl rfl⟩
    rw [attempt?_addAttempt hnone _ _ hnew]
    exact w.attempt?_supersede he hs h
  | endpointSet he | portSet he =>
    exact ⟨e, w.keeps_other h he (fun _ => rfl) (hne' rfl), Or.inl rfl⟩
  | drained he =>
    exact ⟨e, w.keeps_other h (attempt?_of_running he) (fun _ => rfl) (hne' rfl), Or.inl rfl⟩
  | finished he =>
    exact ⟨e, w.keeps_other h (attempt?_of_running he) (fun _ => rfl) (hne' rfl), Or.inl rfl⟩
  | @marked s' x he hx =>
    have hx' := w.attempt?_of_current he
    by_cases hxa : x.attempt = a
    · obtain rfl := w.eq_of_attempt? h (mem_entries_of_current he) hxa
      subst hxa
      refine ⟨_, ?_, Or.inr rfl⟩
      rw [clearBuffer_attempt?, w.attempt?_modifyAttempt hx' (fun _ => by rfl), h, Option.map_some,
        if_pos rfl]
    · exact ⟨e, w.keeps_other h hx' (fun _ => rfl) hxa, Or.inl rfl⟩
  | @tornDown s' x he hx =>
    have hxa : x.attempt ≠ a := by
      intro hxa
      obtain rfl := w.eq_of_attempt? h (mem_entries_of_current he) hxa
      rw [hp] at hx
      cases hx
    exact ⟨e, (w.attempt?_takeOut (w.attempt?_of_current he) s (Ne.symm hxa)).trans h, Or.inl rfl⟩
  | @removedCurrent s' x he =>
    have hxa : x.attempt ≠ a := hne' rfl
    exact ⟨e, (w.attempt?_takeOut (w.attempt?_of_current he) s (Ne.symm hxa)).trans h, Or.inl rfl⟩
  | @removedSuperseded s' a' x _ he =>
    have hxa : a' ≠ a := hne' rfl
    exact ⟨e, (w.attempt?_takeOut (w.attempt?_of_superseded he s') s (Ne.symm hxa)).trans h, Or.inl rfl⟩

theorem keeps_after {s : SessionId} {a : Attempt} {e : Entry} (h : r.attempt? s a = some e)
    (hp : e.phase = .pending) {calls : List Call} (hne : ∀ call ∈ calls, call.attempt? ≠ some a) :
    ∃ e', (r.after calls).attempt? s a = some e' ∧ (e' = e ∨ e' = { e with stopped := true }) := by
  induction calls generalizing r e with
  | nil => exact ⟨e, h, Or.inl rfl⟩
  | cons call rest ih =>
    obtain ⟨hcall, hrest⟩ := List.forall_mem_cons.mp hne
    obtain ⟨e₁, he₁, hev₁⟩ := w.keeps_next h hp hcall
    have hp₁ : e₁.phase = .pending := by rcases hev₁ with rfl | rfl <;> exact hp
    obtain ⟨e₂, he₂, hev₂⟩ := ih (w.next call) he₁ hp₁ hrest
    refine ⟨e₂, he₂, ?_⟩
    rcases hev₁ with rfl | rfl
    · exact hev₂
    · exact Or.inr (hev₂.elim id id)

/-- A session that is entered gets the next attempt number and an empty entry. -/
theorem attempt?_register {s : SessionId} {role : Role} {a : Attempt}
    (h : r.answer (.register s role) = .entered a) :
    a = ⟨r.lastAttempt + 1⟩ ∧
      (r.next (.register s role)).attempt? s a = some (r.newEntry role) ∧
      (r.next (.register s role)).lastAttempt = r.lastAttempt + 1 := by
  have ho := r.perform_outcome (.register s role)
  rw [h] at ho
  revert ho
  generalize r.next (.register s role) = r'
  intro ho
  cases ho with
  | entered he => exact ⟨rfl, attempt?_addAttempt_self he role, addAttempt_lastAttempt _ _ _⟩
  | @enteredAnew _ _ e he _ =>
    have hnone := w.entry?_supersede_self he
    have hself := attempt?_addAttempt_self hnone role
    rw [newEntry, supersede_lastAttempt] at hself
    refine ⟨rfl, hself, ?_⟩
    rw [addAttempt_lastAttempt, supersede_lastAttempt]

theorem attempt?_note {s : SessionId} {a : Attempt} {e : Entry} (h : r.attempt? s a = some e)
    {f : Entry → Entry} (hf : ∀ x, (f x).attempt = x.attempt) :
    (r.note s a f).2.attempt? s a = some (f e) := by
  rcases r.note_cases s a f with ⟨_, _, hr⟩ | ⟨hnone, _⟩
  · rw [hr]
    exact w.modifies_own h hf
  · rw [hnone] at h
    cases h

theorem attempt?_setEndpoint {s : SessionId} {a : Attempt} {e : Entry} (h : r.attempt? s a = some e)
    (endpoint : Endpoint) :
    (r.next (.setEndpoint s a endpoint)).attempt? s a = some { e with endpoint := some endpoint } :=
  w.attempt?_note h fun _ => rfl

theorem attempt?_setPort {s : SessionId} {a : Attempt} {e : Entry} (h : r.attempt? s a = some e)
    (port : MixerPort) :
    (r.next (.setPort s a port)).attempt? s a = some { e with port := some port } :=
  w.attempt?_note h fun _ => rfl

theorem attempt?_finish {s : SessionId} {a : Attempt} {e : Entry} (h : r.attempt? s a = some e)
    (hgranted : r.answer (.finish s a) = .granted) :
    (r.next (.finish s a)).attempt? s a = some { e with phase := .ready } := by
  have ho := r.perform_outcome (.finish s a)
  rw [hgranted] at ho
  revert ho
  generalize r.next (.finish s a) = r'
  intro ho
  cases ho with
  | finished => exact w.modifies_own h fun _ => rfl

theorem attempt?_drained {s : SessionId} {a : Attempt} {e : Entry} (h : r.attempt? s a = some e)
    (hnone : r.answer (.nextCandidate s a) = .candidate none) :
    (r.next (.nextCandidate s a)).attempt? s a = some { e with endpointReady := true } := by
  have ho := r.perform_outcome (.nextCandidate s a)
  rw [hnone] at ho
  revert ho
  generalize r.next (.nextCandidate s a) = r'
  intro ho
  cases ho with
  | drained => exact w.modifies_own h fun _ => rfl

omit w in
theorem attempt?_popped {s : SessionId} {a : Attempt} {c : Candidate}
    (hsome : r.answer (.nextCandidate s a) = .candidate (some c)) (s' : SessionId) (a' : Attempt) :
    (r.next (.nextCandidate s a)).attempt? s' a' = r.attempt? s' a' := by
  have ho := r.perform_outcome (.nextCandidate s a)
  rw [hsome] at ho
  revert ho
  generalize r.next (.nextCandidate s a) = r'
  intro ho
  cases ho with
  | popped => rfl

/-- A call that does not take an entry out leaves the attempt it names, stopped or not as it was. -/
theorem attempt?_kept {call : Call} {a : Attempt} {e : Entry}
    (h : r.attempt? call.session a = some e) (ha : call.attempt? = some a) (hno : ¬ call.takes) :
    ∃ e', (r.next call).attempt? call.session a = some e' ∧ e'.stopped = e.stopped := by
  have ho := r.perform_outcome call
  revert ho
  generalize r.answer call = ans
  generalize r.next call = r'
  intro ho
  cases ho with
  | endpointSet | portSet =>
    cases ha
    exact ⟨_, w.modifies_own h fun _ => rfl, rfl⟩
  | finished =>
    cases ha
    exact ⟨_, w.modifies_own h fun _ => rfl, rfl⟩
  | drained =>
    cases ha
    exact ⟨_, w.modifies_own h fun _ => rfl, rfl⟩
  | endpointUnknown | portUnknown | checked | checkedStopped | drainStopped | finishStopped
  | popped => exact ⟨e, h, rfl⟩
  | removedNothing | removedCurrent | removedSuperseded => exact absurd rfl hno
  | _ => cases ha

theorem remove_own {s : SessionId} {a : Attempt} {e : Entry} (h : r.attempt? s a = some e) :
    (Deed.mk r (.remove s a)).handedOut = [e] ∧
      r.entries = e ::ₘ (r.next (.remove s a)).entries := by
  rw [Deed.handedOut_remove, next_remove]
  rcases r.remove_cases s a with ⟨hnone, _⟩ | ⟨x, hx, rfl, hr⟩ | ⟨x, _, hx, hr⟩
  · rw [hnone] at h
    cases h
  · have hx' := w.attempt?_of_current hx
    obtain rfl := Option.some.inj (h.symm.trans hx')
    rw [hr]
    exact ⟨rfl, w.entries_takeOut hx'⟩
  · have hx' := w.attempt?_of_superseded hx s
    obtain rfl := Option.some.inj (h.symm.trans hx')
    rw [hr]
    exact ⟨rfl, w.entries_takeOut hx'⟩

theorem not_mem_after_remove {s : SessionId} {a : Attempt} {e : Entry} (h : r.attempt? s a = some e)
    {e' : Entry} (he' : e' ∈ (r.next (.remove s a)).entries) : e'.attempt ≠ a := by
  have hne := w.attempt_ne_of_rest (w.remove_own h).2 he'
  rwa [(w.mem_of_attempt? h).2] at hne

omit w in
theorem next_refused {s : SessionId} {role : Role} {fault : NegotiationFault}
    (h : r.answer (.register s role) = .refused fault) : r.next (.register s role) = r := by
  have ho := r.perform_outcome (.register s role)
  rw [h] at ho
  revert ho
  generalize r.next (.register s role) = r'
  intro ho
  cases ho with
  | roleTaken => rfl

omit w in
theorem next_lastAttempt {call : Call} (hno : ∀ s role, call ≠ .register s role) :
    (r.next call).lastAttempt = r.lastAttempt := by
  have ho := r.perform_outcome call
  revert ho
  generalize r.answer call = ans
  generalize r.next call = r'
  intro ho
  cases ho with
  | entered | enteredAnew | roleTaken => exact absurd rfl (hno _ _)
  | _ => simp

omit w in
theorem after_lastAttempt {calls : List Call} (hno : ∀ call ∈ calls, ∀ s role, call ≠ .register s role) :
    (r.after calls).lastAttempt = r.lastAttempt := by
  induction calls generalizing r with
  | nil => rfl
  | cons call rest ih =>
    obtain ⟨hcall, hrest⟩ := List.forall_mem_cons.mp hno
    exact (ih (r := r.next call) hrest).trans (next_lastAttempt hcall)

/-- The current entry of a session that is not entered was its current entry before. -/
theorem current_unless_entered {calls : List Call} {s : SessionId}
    (hno : ∀ role, Call.register s role ∉ calls) {e' : Entry}
    (he' : entry? (r.after calls) s = some e') : ∃ e, r.entry? s = some e ∧ Evolves e e' := by
  induction calls generalizing r with
  | nil => exact ⟨e', he', .refl e'⟩
  | cons call rest ih =>
    obtain ⟨x, hx, hev⟩ := ih (w.next call) (fun role hm => hno role (List.mem_cons_of_mem _ hm)) he'
    rcases w.current_next hx with hissued | ⟨e, he, ha⟩
    · obtain ⟨role, rfl⟩ := Deed.call_of_issued hissued
      exact absurd List.mem_cons_self (hno role)
    · have hstays := w.evolves_after [call] (mem_entries_of_current he) (mem_entries_of_current hx) ha.symm
      exact ⟨e, he, hstays.trans hev⟩

/-- When no session is entered, the current entries were current before. -/
theorem current_after {calls : List Call} (hno : ∀ call ∈ calls, ∀ s role, call ≠ .register s role)
    {s : SessionId} {e' : Entry} (he' : entry? (r.after calls) s = some e') :
    ∃ e, r.entry? s = some e ∧ Evolves e e' :=
  w.current_unless_entered (fun role hm => hno _ hm s role rfl) he'

/-- What a stop leaves of its session is marked. -/
theorem stopped_of_stop {s : SessionId} {e : Entry} (he : entry? (r.next (.stop s)) s = some e) :
    e.stopped := by
  rw [next_stop] at he
  rcases r.stop_cases s with ⟨hnone, hr⟩ | ⟨x, hx, _, hr⟩ | ⟨x, hx, _, hr⟩
  · rw [hr] at he
    cases hnone.symm.trans he
  · rw [hr] at he
    have hmarked := (w.entry?_modifyAttempt (w.attempt?_of_current hx) _ s).symm.trans he
    simp only [hx, Option.map_some, if_true, Option.some.injEq] at hmarked
    rw [← hmarked]
  · rw [hr] at he
    have hgone := (w.entry?_takeOut (w.attempt?_of_current hx) s).symm.trans he
    simp [hx, Option.filter_some] at hgone

/-- An entry that has an endpoint keeps having one. -/
theorem endpoint_after {calls : List Call} {e e' : Entry} (he : e ∈ r.entries)
    (he' : e' ∈ (r.after calls).entries) (ha : e'.attempt = e.attempt) (hep : e.endpoint.isSome) :
    e'.endpoint.isSome := by
  induction calls generalizing r e with
  | nil => rwa [w.eq_of_attempt_eq he he' ha.symm] at hep
  | cons call rest ih =>
    have hle : e'.attempt.number ≤ r.lastAttempt := ha ▸ w.attempt_le e he
    have hle' := Nat.le_trans hle (w.next_changes call).lastAttempt_le
    obtain ⟨e₁, he₁, hev⟩ := ((w.next call).after_changes rest).origin (w.next call) he' hle'
    refine ih (w.next call) he₁ he' hev.attempt ?_
    rcases w.carried_next he₁ with ⟨hnew, _⟩ | ⟨e₂, he₂, ha₂, hep₂, _⟩
    · rw [← hev.attempt] at hnew
      omega
    · obtain rfl := w.eq_of_attempt_eq he₂ he (ha₂.symm.trans (hev.attempt.symm.trans ha))
      rw [hep₂]
      cases (Deed.mk r call).endpointFor e₂.attempt <;> simp [hep]

end WellFormed

end Rostrum.Registry
