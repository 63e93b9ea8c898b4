import Rostrum.Proofs.Registry.Apart

/-!
# One session alone

`Mirrors` compares a registry that many sessions call with one that a single session calls. In the second
one the attempts of the session are numbered without gaps, so an attempt goes there by its rank among the
attempts of the session. A call of the session is answered alike by both, but for these numbers, and the
two correspond afterwards; a call of another session leaves the first one as far as it is compared.
-/

namespace Rostrum

/-- The entry with another name for its attempt. -/
def Entry.named (f : Attempt → Attempt) (e : Entry) : Entry := { e with attempt := f e.attempt }

namespace Registry

/-- The call with another name for the attempt it is about. -/
def Call.named (f : Attempt → Attempt) : Call → Call
  | .setEndpoint s a endpoint => .setEndpoint s (f a) endpoint
  | .setPort s a port => .setPort s (f a) port
  | .check s a => .check s (f a)
  | .nextCandidate s a => .nextCandidate s (f a)
  | .finish s a => .finish s (f a)
  | .remove s a => .remove s (f a)
  | .register s role => .register s role
  | .submit s c => .submit s c
  | .stop s => .stop s

/-- The answer with other names for the attempts in it. -/
def Answer.named (f : Attempt → Attempt) : Answer → Answer
  | .entered a => .entered (f a)
  | .action (.teardown e) => .action (.teardown (e.named f))
  | .removed e => .removed (e.map (Entry.named f))
  | other => other

theorem Call.named_session (f : Attempt → Attempt) (call : Call) :
    (call.named f).session = call.session := by
  cases call <;> rfl

theorem Answer.named_ofUnit (f : Attempt → Attempt) (result : Except NegotiationFault Unit) :
    (Answer.ofUnit result).named f = .ofUnit result := by
  cases result <;> rfl

/-- A call has one outcome. -/
theorem Outcome.determined {r r' : Registry} {call : Call} {ans : Answer} (h : Outcome r call ans r') :
    r.answer call = ans ∧ r.next call = r' := by
  have ho := r.perform_outcome call
  generalize r.answer call = ans' at ho
  generalize r.next call = r'' at ho
  cases h with
  | @removedCurrent s e he =>
    obtain ⟨a, ha⟩ : ∃ a, e.attempt = a := ⟨_, rfl⟩
    rw [ha] at ho ⊢
    cases ho <;> simp_all [attempt?, isCurrent]
  | removedNothing he | removedSuperseded hc he =>
    -- nothing, the current entry and a superseded one exclude each other
    cases ho <;> simp_all [attempt?, isCurrent]
  | _ => cases ho <;> simp_all

/-- The place of an attempt among others, counted from one. Attempts that are not among them come last. -/
def rank (own : List Attempt) (a : Attempt) : Attempt := ⟨own.idxOf a + 1⟩

theorem rank_eq_iff {own : List Attempt} {a a' : Attempt} (h : a ∈ own) :
    rank own a = rank own a' ↔ a = a' := by
  constructor
  · intro heq
    have hidx : own.idxOf a = own.idxOf a' := by simpa [rank] using heq
    exact (List.idxOf_inj h).mp hidx
  · rintro rfl
    rfl

/-- What the calls of a session see of a registry is the same in another one, but for the attempts. -/
structure Mirrors (own : List Attempt) (s : SessionId) (r r₀ : Registry) : Prop where
  entry : r₀.entry? s = (r.entry? s).map (Entry.named (rank own))
  superseded : ∀ a ∈ own,
    r₀.superseded.get? (rank own a) = (r.superseded.get? a).map (Entry.named (rank own))
  queue : r₀.buffer.queues.get? s = r.buffer.queues.get? s
  owned : ∀ e, r.entry? s = some e → e.attempt ∈ own

theorem mirrors_empty (own : List Attempt) (s : SessionId) : Mirrors own s {} {} :=
  ⟨rfl, fun _ _ => rfl, rfl, nofun⟩

namespace Mirrors
variable {own : List Attempt} {s : SessionId} {r r₀ : Registry} (h : Mirrors own s r r₀)
include h

theorem entry_some {e : Entry} (he : r.entry? s = some e) :
    r₀.entry? s = some (e.named (rank own)) := by
  rw [h.entry, he]
  rfl

theorem entry_none (he : r.entry? s = none) : r₀.entry? s = none := by
  rw [h.entry, he]
  rfl

theorem isCurrent (a : Attempt) : r₀.isCurrent s (rank own a) = r.isCurrent s a := by
  unfold Registry.isCurrent
  rw [h.entry]
  cases he : r.entry? s with
  | none => rfl
  | some e => simp [Entry.named, rank_eq_iff (h.owned e he)]

theorem attempt?_eq {a : Attempt} (ha : a ∈ own) :
    r₀.attempt? s (rank own a) = (r.attempt? s a).map (Entry.named (rank own)) := by
  unfold Registry.attempt?
  rw [h.isCurrent]
  split
  · exact h.entry
  · exact h.superseded a ha

/-- An attempt that the calls of the session may name: one of its own, or one that nobody finds. -/
def Known (own : List Attempt) (s : SessionId) (r r₀ : Registry) (a : Attempt) : Prop :=
  a ∈ own ∨ r.attempt? s a = none ∧ r₀.attempt? s (rank own a) = none

section Lookup
variable {a : Attempt} (ha : Known own s r r₀ a)
include ha

omit h in
theorem mem_of_found {e : Entry} (he : r.attempt? s a = some e) : a ∈ own := by
  rcases ha with ha | ⟨hnone, -⟩
  · exact ha
  · cases hnone.symm.trans he

theorem found {e : Entry} (he : r.attempt? s a = some e) :
    r₀.attempt? s (rank own a) = some (e.named (rank own)) := by
  rw [h.attempt?_eq (mem_of_found ha he), he]
  rfl

theorem not_found (he : r.attempt? s a = none) : r₀.attempt? s (rank own a) = none := by
  rcases ha with ha | ⟨-, hnone⟩
  · rw [h.attempt?_eq ha, he]
    rfl
  · exact hnone

theorem running {e : Entry} (he : r.running? s a = some e) :
    r₀.running? s (rank own a) = some (e.named (rank own)) := by
  obtain ⟨hfound, hs⟩ := (r.running?_eq_some_iff s a e).mp he
  exact (r₀.running?_eq_some_iff s _ _).mpr ⟨h.found ha hfound, hs⟩

theorem not_running (he : r.running? s a = none) : r₀.running? s (rank own a) = none := by
  unfold running? at he ⊢
  cases hfound : r.attempt? s a with
  | none => rw [h.not_found ha hfound, Option.filter_none]
  | some e =>
    rw [hfound] at he
    rw [h.found ha hfound]
    simpa [Option.filter_some, Entry.named] using he

end Lookup

/-! ## Changes that go along -/

theorem modify (w : r.WellFormed) (w₀ : r₀.WellFormed) {a : Attempt} {e : Entry} (ha : a ∈ own)
    (he : r.attempt? s a = some e) {g : Entry → Entry} (hattempt : ∀ x, (g x).attempt = x.attempt)
    (hnamed : ∀ x, g (x.named (rank own)) = (g x).named (rank own)) :
    Mirrors own s (r.modifyAttempt s a g) (r₀.modifyAttempt s (rank own a) g) := by
  have he₀ := h.found (.inl ha) he
  have hgo : ∀ x, x.attempt ∈ own →
      (if (x.named (rank own)).attempt = rank own a then g (x.named (rank own)) else x.named (rank own)) =
        (if x.attempt = a then g x else x).named (rank own) := by
    intro x hx
    have hiff : (x.named (rank own)).attempt = rank own a ↔ x.attempt = a := rank_eq_iff hx
    by_cases hxa : x.attempt = a
    · rw [if_pos (hiff.mpr hxa), if_pos hxa, hnamed]
    · rw [if_neg fun heq => hxa (hiff.mp heq), if_neg hxa]
  constructor
  · rw [w₀.entry?_modifyAttempt he₀, w.entry?_modifyAttempt he, h.entry]
    cases hx : r.entry? s with
    | none => rfl
    | some x => exact congrArg some (hgo x (h.owned x hx))
  · intro a' ha'
    rw [w₀.superseded_modifyAttempt he₀, w.superseded_modifyAttempt he, h.superseded a' ha']
    cases hx : r.superseded.get? a' with
    | none => rfl
    | some x => exact congrArg some (hgo x (w.superseded_key a' x hx ▸ ha'))
  · rw [modifyAttempt_buffer, modifyAttempt_buffer, h.queue]
  · intro x hx
    rw [w.entry?_modifyAttempt he] at hx
    obtain ⟨y, hy, rfl⟩ := Option.map_eq_some_iff.mp hx
    split
    · exact hattempt y ▸ h.owned y hy
    · exact h.owned y hy

theorem takeOut (w : r.WellFormed) (w₀ : r₀.WellFormed) {a : Attempt} {e : Entry} (ha : a ∈ own)
    (he : r.attempt? s a = some e) :
    Mirrors own s (r.takeOut s a) (r₀.takeOut s (rank own a)) := by
  have he₀ := h.found (.inl ha) he
  have hgo : ∀ x, x.attempt ∈ own →
      Option.filter (fun y : Entry => y.attempt ≠ rank own a) (some (x.named (rank own))) =
        (Option.filter (fun y : Entry => y.attempt ≠ a) (some x)).map (Entry.named (rank own)) := by
    intro x hx
    have hiff : (x.named (rank own)).attempt = rank own a ↔ x.attempt = a := rank_eq_iff hx
    by_cases hxa : x.attempt = a <;> simp [Option.filter_some, hiff, hxa]
  constructor
  · rw [w₀.entry?_takeOut he₀, w.entry?_takeOut he, h.entry]
    cases hx : r.entry? s with
    | none => rfl
    | some x => exact hgo x (h.owned x hx)
  · intro a' ha'
    rw [w₀.superseded_takeOut he₀, w.superseded_takeOut he, h.superseded a' ha']
    cases hx : r.superseded.get? a' with
    | none => rfl
    | some x => exact hgo x (w.superseded_key a' x hx ▸ ha')
  · rw [takeOut_buffer, takeOut_buffer, h.queue]
  · intro x hx
    rw [w.entry?_takeOut he] at hx
    exact h.owned x (Option.filter_eq_some_iff.mp hx).1

theorem clearBuffer : Mirrors own s (r.clearBuffer s) (r₀.clearBuffer s) :=
  ⟨h.entry, h.superseded, (Table.get?_erase_self ..).trans (Table.get?_erase_self ..).symm, h.owned⟩

theorem queuePut (queue : List Candidate) :
    Mirrors own s { r with buffer := ⟨r.buffer.queues.put s queue⟩ }
      { r₀ with buffer := ⟨r₀.buffer.queues.put s queue⟩ } :=
  ⟨h.entry, h.superseded, (Table.get?_put_self ..).trans (Table.get?_put_self ..).symm, h.owned⟩

theorem waiting : r₀.buffer.waiting s = r.buffer.waiting s :=
  congrArg (fun queue => queue.getD []) h.queue

theorem addAttempt (he : r.entry? s = none) (role : Role) (hmem : ⟨r.lastAttempt + 1⟩ ∈ own)
    (hrank : rank own ⟨r.lastAttempt + 1⟩ = ⟨r₀.lastAttempt + 1⟩) :
    Mirrors own s (r.addAttempt s role).2 (r₀.addAttempt s role).2 := by
  constructor
  · rw [entry?_addAttempt (h.entry_none he), entry?_addAttempt he, if_pos rfl, if_pos rfl]
    simp [newEntry, Entry.named, hrank]
  · intro a ha
    rw [addAttempt_superseded, addAttempt_superseded, h.superseded a ha]
  · rw [addAttempt_buffer, addAttempt_buffer, h.queue]
  · intro e hnew
    rw [entry?_addAttempt he, if_pos rfl] at hnew
    cases hnew
    exact hmem

theorem supersede (w : r.WellFormed) (w₀ : r₀.WellFormed) {e : Entry} (he : r.entry? s = some e) :
    Mirrors own s (r.supersede s e) (r₀.supersede s (e.named (rank own))) := by
  have he₀ := h.entry_some he
  constructor
  · rw [w₀.entry?_supersede_self he₀, w.entry?_supersede_self he]
    rfl
  · intro a ha
    have hiff : (e.named (rank own)).attempt = rank own a ↔ e.attempt = a := rank_eq_iff (h.owned e he)
    refine (Table.get?_put ..).trans ?_
    refine Eq.trans ?_ (congrArg (Option.map (Entry.named (rank own))) (Table.get?_put ..)).symm
    rw [dropEntry_superseded, dropEntry_superseded, h.superseded a ha]
    by_cases hea : e.attempt = a
    · rw [if_pos (hiff.mpr hea), if_pos hea]
      rfl
    · rw [if_neg fun heq => hea (hiff.mp heq), if_neg hea]
  · rw [supersede_buffer, supersede_buffer, h.queue]
  · intro x hx
    rw [w.entry?_supersede_self he] at hx
    cases hx

/-- A call of the session has the same outcome in both registries, but for the names of attempts. -/
theorem outcome (w : r.WellFormed) (w₀ : r₀.WellFormed) {call : Call} {ans : Answer} {r' : Registry}
    (ho : Outcome r call ans r') (hs : call.session = s)
    (hknown : ∀ a, call.attempt? = some a → Known own s r r₀ a)
    (hnew : ∀ a, ans = .entered a → a ∈ own ∧ rank own a = ⟨r₀.lastAttempt + 1⟩) :
    ∃ r₀', Outcome r₀ (call.named (rank own)) (ans.named (rank own)) r₀' ∧ Mirrors own s r' r₀' := by
  subst hs
  cases ho with
  | @roleTaken _ _ e he hno =>
    exact ⟨_, .roleTaken (e := e.named (rank own)) (h.entry_some he) hno, h⟩
  | entered he =>
    obtain ⟨hmem, hrank⟩ := hnew _ rfl
    refine ⟨_, ?_, h.addAttempt he _ hmem hrank⟩
    rw [Answer.named, hrank]
    exact .entered (h.entry_none he)
  | enteredAnew he hs =>
    obtain ⟨hmem, hrank⟩ := hnew _ rfl
    refine ⟨_, ?_, (h.supersede w w₀ he).addAttempt (w.entry?_supersede_self he) _ ?_ ?_⟩
    · rw [Answer.named, hrank]
      exact .enteredAnew (h.entry_some he) hs
    · rwa [supersede_lastAttempt]
    · rwa [supersede_lastAttempt, supersede_lastAttempt]
  | @endpointSet _ _ _ e he =>
    have ha := hknown _ rfl
    have hmem := mem_of_found ha he
    rw [Answer.named_ofUnit]
    exact ⟨_, .endpointSet (e := e.named (rank own)) (h.found ha he),
      h.modify w w₀ hmem he (fun _ => rfl) fun _ => rfl⟩
  | endpointUnknown he => exact ⟨_, .endpointUnknown (h.not_found (hknown _ rfl) he), h⟩
  | @portSet _ _ _ e he =>
    have ha := hknown _ rfl
    have hmem := mem_of_found ha he
    rw [Answer.named_ofUnit]
    exact ⟨_, .portSet (e := e.named (rank own)) (h.found ha he),
      h.modify w w₀ hmem he (fun _ => rfl) fun _ => rfl⟩
  | portUnknown he => exact ⟨_, .portUnknown (h.not_found (hknown _ rfl) he), h⟩
  | checked he => exact ⟨_, .checked (h.running (hknown _ rfl) he), h⟩
  | checkedStopped he => exact ⟨_, .checkedStopped (h.not_running (hknown _ rfl) he), h⟩
  | popped he hpop =>
    obtain ⟨rest, hwaiting, rfl⟩ := CandidateBuffer.pop_eq_some_iff.mp hpop
    have hpop₀ := CandidateBuffer.pop_eq_some_iff.mpr ⟨rest, h.waiting.trans hwaiting, rfl⟩
    exact ⟨_, .popped (h.running (hknown _ rfl) he) hpop₀, h.queuePut rest⟩
  | drained he hpop =>
    have ha := hknown _ rfl
    have hmem := mem_of_found ha (attempt?_of_running he)
    have hwaiting := CandidateBuffer.pop_eq_none_iff.mp hpop
    have hpop₀ := CandidateBuffer.pop_eq_none_iff.mpr (h.waiting.trans hwaiting)
    have hmodified := h.modify (g := fun e => { e with endpointReady := true }) w w₀ hmem
      (attempt?_of_running he) (fun _ => rfl) fun _ => rfl
    exact ⟨_, .drained (h.running ha he) hpop₀, hmodified.clearBuffer⟩
  | drainStopped he => exact ⟨_, .drainStopped (h.not_running (hknown _ rfl) he), h⟩
  | applied he hready hs hep => exact ⟨_, .applied (h.entry_some he) hready hs hep, h⟩
  | @buffered s _ hno =>
    have hwaiting : r₀.buffer.waiting s = r.buffer.waiting s := h.waiting
    refine ⟨_, .buffered fun e₀ he₀ hready hs => ?_, ?_⟩
    · obtain ⟨e, he, rfl⟩ := Option.map_eq_some_iff.mp (h.entry.symm.trans he₀)
      exact hno e he hready hs
    · unfold CandidateBuffer.push
      rw [hwaiting]
      exact h.queuePut _
  | finished he =>
    have ha := hknown _ rfl
    have hmem := mem_of_found ha (attempt?_of_running he)
    exact ⟨_, .finished (h.running ha he),
      h.modify w w₀ hmem (attempt?_of_running he) (fun _ => rfl) fun _ => rfl⟩
  | finishStopped he => exact ⟨_, .finishStopped (h.not_running (hknown _ rfl) he), h⟩
  | stoppedNothing he => exact ⟨_, .stoppedNothing (h.entry_none he), h.clearBuffer⟩
  | marked he hp =>
    have hmodified := h.modify (g := fun e => { e with stopped := true }) w w₀ (h.owned _ he)
      (w.attempt?_of_current he) (fun _ => rfl) fun _ => rfl
    exact ⟨_, .marked (h.entry_some he) hp, hmodified.clearBuffer⟩
  | tornDown he hp =>
    have htaken := h.takeOut w w₀ (h.owned _ he) (w.attempt?_of_current he)
    exact ⟨_, .tornDown (h.entry_some he) hp, htaken.clearBuffer⟩
  | removedNothing he => exact ⟨_, .removedNothing (h.not_found (hknown _ rfl) he), h⟩
  | removedCurrent he =>
    have htaken := h.takeOut w w₀ (h.owned _ he) (w.attempt?_of_current he)
    exact ⟨_, .removedCurrent (h.entry_some he), htaken.clearBuffer⟩
  | @removedSuperseded s a e hcurrent he =>
    have hfound := w.attempt?_of_superseded he s
    have hmem := mem_of_found (hknown a rfl) hfound
    have he₀ : r₀.superseded.get? (rank own a) = some (e.named (rank own)) := by
      rw [h.superseded a hmem, he]
      rfl
    exact ⟨_, .removedSuperseded ((h.isCurrent _).trans hcurrent) he₀, h.takeOut w w₀ hmem hfound⟩

theorem next (w : r.WellFormed) (w₀ : r₀.WellFormed) {call : Call} (hs : call.session = s)
    (hknown : ∀ a, call.attempt? = some a → Known own s r r₀ a)
    (hnew : ∀ a, r.answer call = .entered a → a ∈ own ∧ rank own a = ⟨r₀.lastAttempt + 1⟩) :
    r₀.answer (call.named (rank own)) = (r.answer call).named (rank own) ∧
      Mirrors own s (r.next call) (r₀.next (call.named (rank own))) := by
  obtain ⟨r₀', ho, hmirrors⟩ := h.outcome w w₀ (r.perform_outcome call) hs hknown hnew
  obtain ⟨hanswer, rfl⟩ := ho.determined
  exact ⟨hanswer, hmirrors⟩

/-- A call of another session is not seen. -/
theorem other (w : r.WellFormed) {call : Call} (hs : call.session ≠ s)
    (hcurrent : ∀ e, r.entry? call.session = some e → e.attempt ∉ own)
    (hnamed : ∀ a ∈ own, call.attempt? ≠ some a) : Mirrors own s (r.next call) r₀ := by
  have hsame : SameFor s r (r.next call) := sameFor_next hs rfl
  have hentry : entry? (r.next call) s = r.entry? s :=
    congrArg₂ Option.or (hsame.tables .presenter) (hsame.tables .viewer)
  constructor
  · rw [h.entry, hentry]
  · intro a ha
    have hkept := w.superseded_next (fun e he hea => hcurrent e he (hea ▸ ha)) (hnamed a ha)
    rw [hkept, h.superseded a ha]
  · rw [h.queue, hsame.queue]
  · intro e he
    exact h.owned e (hentry ▸ he)

end Mirrors

end Registry

end Rostrum
