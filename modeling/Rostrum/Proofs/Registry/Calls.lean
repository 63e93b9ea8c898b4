import Mathlib.Logic.Relation
import Rostrum.Proofs.Registry.Lookup

/-!
# Calls to the registry

`perform` is the registry as one machine with nine calls. What a call can do is said once, in a lemma
of its own for every call; `Outcome` collects them, and `Outcome.changes` says that a call is a chain
of elementary changes.
-/

namespace Rostrum.Registry

inductive Call where
  | register (session : SessionId) (role : Role)
  | setEndpoint (session : SessionId) (attempt : Attempt) (endpoint : Endpoint)
  | setPort (session : SessionId) (attempt : Attempt) (port : MixerPort)
  | check (session : SessionId) (attempt : Attempt)
  | nextCandidate (session : SessionId) (attempt : Attempt)
  | submit (session : SessionId) (candidate : Candidate)
  | finish (session : SessionId) (attempt : Attempt)
  | stop (session : SessionId)
  | remove (session : SessionId) (attempt : Attempt)
deriving Repr

namespace Call

def stores : Call → Bool
  | .setEndpoint _ _ _ => true
  | .setPort _ _ _ => true
  | _ => false

/-- Whether a call may hand out an entry. -/
def takes : Call → Bool
  | .stop _ => true
  | .remove _ _ => true
  | _ => false

def attempt? : Call → Option Attempt
  | .setEndpoint _ a _ => some a
  | .setPort _ a _ => some a
  | .check _ a => some a
  | .nextCandidate _ a => some a
  | .finish _ a => some a
  | .remove _ a => some a
  | _ => none

def session : Call → SessionId
  | .register s _ => s
  | .setEndpoint s _ _ => s
  | .setPort s _ _ => s
  | .check s _ => s
  | .nextCandidate s _ => s
  | .submit s _ => s
  | .finish s _ => s
  | .stop s => s
  | .remove s _ => s

end Call

inductive Answer where
  | entered (attempt : Attempt)
  | granted
  | refused (fault : NegotiationFault)
  | candidate (candidate : Option Candidate)
  | destination (destination : Destination)
  | action (action : StopAction)
  | removed (entry : Option Entry)
deriving Repr

def Answer.ofUnit : Except NegotiationFault Unit → Answer
  | .ok () => .granted
  | .error fault => .refused fault

/-- Performs a call. A call that is refused without a new registry leaves the old one. -/
def perform (r : Registry) : Call → Answer × Registry
  | .register s role =>
    match r.register s role with
    | .ok (a, r) => (.entered a, r)
    | .error fault => (.refused fault, r)
  | .setEndpoint s a endpoint =>
    let (result, r) := r.setEndpoint s a endpoint
    (.ofUnit result, r)
  | .setPort s a port =>
    let (result, r) := r.setPort s a port
    (.ofUnit result, r)
  | .check s a => (.ofUnit (r.check s a), r)
  | .nextCandidate s a =>
    match r.nextCandidate s a with
    | .ok (c, r) => (.candidate c, r)
    | .error fault => (.refused fault, r)
  | .submit s c =>
    let (destination, r) := r.submit s c
    (.destination destination, r)
  | .finish s a =>
    match r.finish s a with
    | .ok r => (.granted, r)
    | .error fault => (.refused fault, r)
  | .stop s =>
    let (action, r) := r.stop s
    (.action action, r)
  | .remove s a =>
    let (e, r) := r.remove s a
    (.removed e, r)

def answer (r : Registry) (call : Call) : Answer := (r.perform call).1

def next (r : Registry) (call : Call) : Registry := (r.perform call).2

def after (r : Registry) (calls : List Call) : Registry := calls.foldl next r

section Cases
variable (r : Registry) (s : SessionId) (a : Attempt)

theorem next_remove : r.next (.remove s a) = (r.remove s a).2 := rfl

theorem answer_remove : r.answer (.remove s a) = .removed (r.remove s a).1 := rfl

theorem next_stop : r.next (.stop s) = (r.stop s).2 := rfl

theorem answer_stop : r.answer (.stop s) = .action (r.stop s).1 := rfl

theorem next_setEndpoint (endpoint : Endpoint) :
    r.next (.setEndpoint s a endpoint) = (r.setEndpoint s a endpoint).2 := rfl

theorem answer_setEndpoint (endpoint : Endpoint) :
    r.answer (.setEndpoint s a endpoint) = .ofUnit (r.setEndpoint s a endpoint).1 := rfl

theorem next_setPort (port : MixerPort) :
    r.next (.setPort s a port) = (r.setPort s a port).2 := rfl

theorem answer_setPort (port : MixerPort) :
    r.answer (.setPort s a port) = .ofUnit (r.setPort s a port).1 := rfl

theorem next_submit (c : Candidate) : r.next (.submit s c) = (r.submit s c).2 := rfl

theorem answer_submit (c : Candidate) :
    r.answer (.submit s c) = .destination (r.submit s c).1 := rfl

theorem modifyAttempt_clearBuffer (f : Entry → Entry) :
    (r.clearBuffer s).modifyAttempt s a f = (r.modifyAttempt s a f).clearBuffer s := by
  have hc : (r.clearBuffer s).isCurrent s a = r.isCurrent s a := rfl
  unfold modifyAttempt modifyEntry
  rw [hc]
  by_cases h : r.isCurrent s a
  · by_cases hp : r.presenters.contains s <;> simp [h, hp, clearBuffer]
  · simp [h, clearBuffer]

theorem takeOut_clearBuffer : (r.clearBuffer s).takeOut s a = (r.takeOut s a).clearBuffer s := by
  have hc : (r.clearBuffer s).isCurrent s a = r.isCurrent s a := rfl
  unfold takeOut dropEntry
  rw [hc]
  by_cases h : r.isCurrent s a
  · by_cases hp : r.presenters.contains s <;> simp [h, hp, clearBuffer]
  · simp [h, clearBuffer]

theorem register_cases (role : Role) :
    (∃ e, r.entry? s = some e ∧ ¬ e.stopped ∧ r.register s role = .error (.roleTaken e.role)) ∨
    (r.entry? s = none ∧ r.register s role = .ok (r.addAttempt s role)) ∨
    (∃ e, r.entry? s = some e ∧ e.stopped ∧
      r.register s role = .ok ((r.supersede s e).addAttempt s role)) := by
  unfold register
  cases h : r.entry? s with
  | none => exact Or.inr (Or.inl ⟨rfl, rfl⟩)
  | some e =>
    by_cases hs : e.stopped
    · exact Or.inr (Or.inr ⟨e, rfl, hs, if_pos hs⟩)
    · exact Or.inl ⟨e, rfl, hs, if_neg hs⟩

theorem note_cases (f : Entry → Entry) :
    (∃ e, r.attempt? s a = some e ∧
      r.note s a f = (if e.stopped then .error .stopped else .ok (), r.modifyAttempt s a f)) ∨
    (r.attempt? s a = none ∧ r.note s a f = (.error .stopped, r)) := by
  unfold note
  cases h : r.attempt? s a with
  | none => exact Or.inr ⟨rfl, rfl⟩
  | some e => exact Or.inl ⟨e, rfl, rfl⟩

theorem running?_eq_some_iff (e : Entry) :
    r.running? s a = some e ↔ r.attempt? s a = some e ∧ ¬ e.stopped := by
  unfold running?
  rw [Option.filter_eq_some_iff]
  simp

theorem attempt?_of_running {r : Registry} {s : SessionId} {a : Attempt} {e : Entry}
    (h : r.running? s a = some e) : r.attempt? s a = some e :=
  ((r.running?_eq_some_iff s a e).mp h).1

theorem nextCandidate_cases :
    (r.running? s a = none ∧ r.nextCandidate s a = .error .stopped) ∨
    (∃ e c b, r.running? s a = some e ∧ r.buffer.pop s = some (c, b) ∧
      r.nextCandidate s a = .ok (some c, { r with buffer := b })) ∨
    (∃ e, r.running? s a = some e ∧ r.buffer.pop s = none ∧
      r.nextCandidate s a =
        .ok (none, (r.modifyAttempt s a fun e => { e with endpointReady := true }).clearBuffer s)) := by
  unfold nextCandidate
  cases h : r.running? s a with
  | none => exact Or.inl ⟨rfl, rfl⟩
  | some e =>
    cases hp : r.buffer.pop s with
    | none => exact Or.inr (Or.inr ⟨e, rfl, rfl, by simp [modifyAttempt_clearBuffer]⟩)
    | some p => exact Or.inr (Or.inl ⟨e, p.1, p.2, rfl, rfl, rfl⟩)

theorem next_nextCandidate_of_check {fault : NegotiationFault} (h : r.check s a = .error fault) :
    r.next (.nextCandidate s a) = r := by
  rcases r.nextCandidate_cases s a with ⟨_, hr⟩ | ⟨e, _, _, he, _⟩ | ⟨e, he, _⟩
  · simp only [next, perform, hr]
  · simp [check, he] at h
  · simp [check, he] at h

theorem submit_cases (c : Candidate) :
    (∃ e endpoint, r.entry? s = some e ∧ e.endpointReady ∧ ¬ e.stopped ∧ e.endpoint = some endpoint ∧
      r.submit s c = (.apply endpoint c, r)) ∨
    ((∀ e, r.entry? s = some e → e.endpointReady → ¬ e.stopped → e.endpoint = none) ∧
      r.submit s c = (.buffered, { r with buffer := r.buffer.push s c })) := by
  unfold submit
  cases h : r.entry? s with
  | none => exact Or.inr ⟨fun e he => (by cases he), rfl⟩
  | some e =>
    by_cases hready : e.endpointReady ∧ ¬ e.stopped
    · obtain ⟨hr, hs⟩ := hready
      cases he : e.endpoint with
      | some endpoint =>
        left
        obtain ⟨_, _, _, _, _, _, _⟩ := e
        refine ⟨_, endpoint, rfl, hr, hs, he, ?_⟩
        simp_all [Option.filter_some]
      | none =>
        right
        obtain ⟨_, _, _, _, _, _, _⟩ := e
        refine ⟨?_, ?_⟩
        · intro e' he' _ _
          cases he'
          exact he
        · simp_all [Option.filter_some]
    · right
      refine ⟨?_, ?_⟩
      · intro e' he' hr hs
        cases he'
        exact absurd ⟨hr, hs⟩ hready
      · have hf : (e.endpointReady && !e.stopped) = false := by
          cases hr : e.endpointReady <;> simp_all
        simp [Option.filter_some, hf]

theorem finish_cases :
    (r.running? s a = none ∧ r.finish s a = .error .stopped) ∨
    (∃ e, r.running? s a = some e ∧
      r.finish s a = .ok (r.modifyAttempt s a fun e => { e with phase := .ready })) := by
  unfold finish
  cases h : r.running? s a with
  | none => exact Or.inl ⟨rfl, rfl⟩
  | some e => exact Or.inr ⟨e, rfl, rfl⟩

theorem modifyEntry_eq_modifyAttempt {r : Registry} {s : SessionId} {e : Entry}
    (h : r.entry? s = some e) (f : Entry → Entry) :
    r.modifyEntry s f = r.modifyAttempt s e.attempt f := by
  simp [modifyAttempt, isCurrent, h]

theorem dropEntry_eq_takeOut {r : Registry} {s : SessionId} {e : Entry} (h : r.entry? s = some e) :
    r.dropEntry s = r.takeOut s e.attempt := by
  simp [takeOut, isCurrent, h]

theorem stop_cases :
    (r.entry? s = none ∧ r.stop s = (.nothing, r.clearBuffer s)) ∨
    (∃ e, r.entry? s = some e ∧ e.phase = .pending ∧
      r.stop s = (.marked,
        (r.modifyAttempt s e.attempt fun e => { e with stopped := true }).clearBuffer s)) ∨
    (∃ e, r.entry? s = some e ∧ e.phase = .ready ∧
      r.stop s = (.teardown e, (r.takeOut s e.attempt).clearBuffer s)) := by
  unfold stop
  have hc : entry? (r.clearBuffer s) s = r.entry? s := rfl
  cases h : r.entry? s with
  | none => exact Or.inl ⟨rfl, by simp [hc, h]⟩
  | some e =>
    rw [h] at hc
    cases hp : e.phase with
    | pending =>
      refine Or.inr (Or.inl ⟨e, rfl, hp, ?_⟩)
      simp [hc, hp, modifyEntry_eq_modifyAttempt hc, modifyAttempt_clearBuffer]
    | ready =>
      refine Or.inr (Or.inr ⟨e, rfl, hp, ?_⟩)
      simp [hc, hp, dropEntry_eq_takeOut hc, takeOut_clearBuffer]

theorem remove_cases :
    (r.attempt? s a = none ∧ r.remove s a = (none, r)) ∨
    (∃ e, r.entry? s = some e ∧ e.attempt = a ∧
      r.remove s a = (some e, (r.takeOut s a).clearBuffer s)) ∨
    (∃ e, r.isCurrent s a = false ∧ r.superseded.get? a = some e ∧
      r.remove s a = (some e, r.takeOut s a)) := by
  unfold remove attempt?
  cases hc : r.isCurrent s a with
  | true =>
    cases h : r.entry? s with
    | none => simp [isCurrent, h] at hc
    | some e =>
      have ha : e.attempt = a := by simpa [isCurrent, h] using hc
      refine Or.inr (Or.inl ⟨e, rfl, ha, ?_⟩)
      have hd : (r.clearBuffer s).dropEntry s = (r.takeOut s a).clearBuffer s := by
        rw [← takeOut_clearBuffer, ← ha]
        exact dropEntry_eq_takeOut h
      exact congrArg (Prod.mk _) hd
  | false =>
    cases h : r.superseded.get? a with
    | none => exact Or.inl ⟨rfl, by simp [Table.erase_of_get?_eq_none h]⟩
    | some e => exact Or.inr (Or.inr ⟨e, rfl, rfl, by simp [takeOut, hc]⟩)

end Cases

/-- All that a call can do, with the answer that goes with it. -/
inductive Outcome (r : Registry) : Call → Answer → Registry → Prop where
  | roleTaken {s role e} : r.entry? s = some e → ¬ e.stopped →
      Outcome r (.register s role) (.refused (.roleTaken e.role)) r
  | entered {s role} : r.entry? s = none →
      Outcome r (.register s role) (.entered ⟨r.lastAttempt + 1⟩) (r.addAttempt s role).2
  | enteredAnew {s role e} : r.entry? s = some e → e.stopped →
      Outcome r (.register s role) (.entered ⟨r.lastAttempt + 1⟩)
        ((r.supersede s e).addAttempt s role).2
  | endpointSet {s a endpoint e} : r.attempt? s a = some e →
      Outcome r (.setEndpoint s a endpoint) (.ofUnit (if e.stopped then .error .stopped else .ok ()))
        (r.modifyAttempt s a fun e => { e with endpoint := some endpoint })
  | endpointUnknown {s a endpoint} : r.attempt? s a = none →
      Outcome r (.setEndpoint s a endpoint) (.refused .stopped) r
  | portSet {s a port e} : r.attempt? s a = some e →
      Outcome r (.setPort s a port) (.ofUnit (if e.stopped then .error .stopped else .ok ()))
        (r.modifyAttempt s a fun e => { e with port := some port })
  | portUnknown {s a port} : r.attempt? s a = none →
      Outcome r (.setPort s a port) (.refused .stopped) r
  | checked {s a e} : r.running? s a = some e → Outcome r (.check s a) .granted r
  | checkedStopped {s a} : r.running? s a = none → Outcome r (.check s a) (.refused .stopped) r
  | popped {s a e c b} : r.running? s a = some e → r.buffer.pop s = some (c, b) →
      Outcome r (.nextCandidate s a) (.candidate (some c)) { r with buffer := b }
  | drained {s a e} : r.running? s a = some e → r.buffer.pop s = none →
      Outcome r (.nextCandidate s a) (.candidate none)
        ((r.modifyAttempt s a fun e => { e with endpointReady := true }).clearBuffer s)
  | drainStopped {s a} : r.running? s a = none →
      Outcome r (.nextCandidate s a) (.refused .stopped) r
  | applied {s c e endpoint} : r.entry? s = some e → e.endpointReady → ¬ e.stopped →
      e.endpoint = some endpoint → Outcome r (.submit s c) (.destination (.apply endpoint c)) r
  | buffered {s c} :
      (∀ e, r.entry? s = some e → e.endpointReady → ¬ e.stopped → e.endpoint = none) →
      Outcome r (.submit s c) (.destination .buffered) { r with buffer := r.buffer.push s c }
  | finished {s a e} : r.running? s a = some e →
      Outcome r (.finish s a) .granted (r.modifyAttempt s a fun e => { e with phase := .ready })
  | finishStopped {s a} : r.running? s a = none → Outcome r (.finish s a) (.refused .stopped) r
  | stoppedNothing {s} : r.entry? s = none →
      Outcome r (.stop s) (.action .nothing) (r.clearBuffer s)
  | marked {s e} : r.entry? s = some e → e.phase = .pending →
      Outcome r (.stop s) (.action .marked)
        ((r.modifyAttempt s e.attempt fun e => { e with stopped := true }).clearBuffer s)
  | tornDown {s e} : r.entry? s = some e → e.phase = .ready →
      Outcome r (.stop s) (.action (.teardown e)) ((r.takeOut s e.attempt).clearBuffer s)
  | removedNothing {s a} : r.attempt? s a = none → Outcome r (.remove s a) (.removed none) r
  | removedCurrent {s e} : r.entry? s = some e →
      Outcome r (.remove s e.attempt) (.removed (some e)) ((r.takeOut s e.attempt).clearBuffer s)
  | removedSuperseded {s a e} : r.isCurrent s a = false → r.superseded.get? a = some e →
      Outcome r (.remove s a) (.removed (some e)) (r.takeOut s a)

theorem perform_outcome (r : Registry) (call : Call) : Outcome r call (r.answer call) (r.next call) := by
  cases call with
  | register s role =>
    simp only [answer, next, perform]
    rcases r.register_cases s role with ⟨e, he, hs, hr⟩ | ⟨he, hr⟩ | ⟨e, he, hs, hr⟩
    · simpa only [hr] using .roleTaken he hs
    · simpa only [hr] using .entered he
    · simp only [hr]
      have ha : (r.supersede s e).lastAttempt = r.lastAttempt := supersede_lastAttempt r s e
      have ho : Outcome r (.register s role) _ _ := .enteredAnew he hs
      rwa [← ha] at ho
  | setEndpoint s a endpoint =>
    simp only [answer, next, perform, setEndpoint]
    rcases r.note_cases s a fun e => { e with endpoint := some endpoint } with ⟨e, he, hr⟩ | ⟨he, hr⟩
    · simpa only [hr] using .endpointSet he
    · simpa only [hr] using .endpointUnknown he
  | setPort s a port =>
    simp only [answer, next, perform, setPort]
    rcases r.note_cases s a fun e => { e with port := some port } with ⟨e, he, hr⟩ | ⟨he, hr⟩
    · simpa only [hr] using .portSet he
    · simpa only [hr] using .portUnknown he
  | check s a =>
    simp only [answer, next, perform, check]
    cases h : r.running? s a with
    | none => exact .checkedStopped h
    | some e => exact .checked h
  | nextCandidate s a =>
    simp only [answer, next, perform]
    rcases r.nextCandidate_cases s a with ⟨he, hr⟩ | ⟨e, c, b, he, hb, hr⟩ | ⟨e, he, hb, hr⟩
    · simpa only [hr] using .drainStopped he
    · simpa only [hr] using .popped he hb
    · simpa only [hr] using .drained he hb
  | submit s c =>
    simp only [answer, next, perform]
    rcases r.submit_cases s c with ⟨e, endpoint, he, hready, hs, hep, hr⟩ | ⟨hno, hr⟩
    · simpa only [hr] using .applied he hready hs hep
    · simpa only [hr] using .buffered hno
  | finish s a =>
    simp only [answer, next, perform]
    rcases r.finish_cases s a with ⟨he, hr⟩ | ⟨e, he, hr⟩
    · simpa only [hr] using .finishStopped he
    · simpa only [hr] using .finished he
  | stop s =>
    simp only [answer, next, perform]
    rcases r.stop_cases s with ⟨he, hr⟩ | ⟨e, he, hp, hr⟩ | ⟨e, he, hp, hr⟩
    · simpa only [hr] using .stoppedNothing he
    · simpa only [hr] using .marked he hp
    · simpa only [hr] using .tornDown he hp
  | remove s a =>
    simp only [answer, next, perform]
    rcases r.remove_cases s a with ⟨he, hr⟩ | ⟨e, he, rfl, hr⟩ | ⟨e, hc, he, hr⟩
    · simpa only [hr] using .removedNothing he
    · simpa only [hr] using .removedCurrent he
    · simpa only [hr] using .removedSuperseded hc he

/-- A chain of elementary changes. -/
abbrev Changes (r r' : Registry) : Prop := Relation.ReflTransGen Change r r'

theorem Changes.wellFormed {r r' : Registry} (h : Changes r r') (w : r.WellFormed) : r'.WellFormed := by
  induction h with
  | refl => exact w
  | tail _ hc ih => exact hc.wellFormed ih

theorem Outcome.changes {r r' : Registry} {call : Call} {ans : Answer} (h : Outcome r call ans r')
    (w : r.WellFormed) : Changes r r' := by
  have hpend : ∀ {s a e}, r.attempt? s a = some e → e.stopped → e.phase = .pending :=
    fun ha => w.stopped_pending _ (w.mem_of_attempt? ha).1
  cases h with
  | roleTaken | endpointUnknown | portUnknown | checked | checkedStopped | drainStopped | applied
  | finishStopped | removedNothing => exact .refl
  | entered he => exact .single (.add _ _ he)
  | @enteredAnew s role e he hs =>
    have hnone := w.entry?_supersede_self he
    exact .head (.supersede _ _ he hs) (.single (.add _ _ hnone))
  | endpointSet he =>
    have hp := hpend he
    exact .single (.modify _ _ _ _ he ⟨rfl, rfl, id, id, id⟩ hp)
  | portSet he =>
    have hp := hpend he
    exact .single (.modify _ _ _ _ he ⟨rfl, rfl, id, id, id⟩ hp)
  | popped => exact .single (.rebuffer _)
  | drained he =>
    obtain ⟨ha, hs⟩ := (r.running?_eq_some_iff _ _ _).mp he
    refine .tail (.single (.modify _ _ _ _ ha ⟨rfl, rfl, id, fun _ => rfl, id⟩ ?_)) (.rebuffer _)
    exact fun hs' => absurd hs' hs
  | buffered => exact .single (.rebuffer _)
  | finished he =>
    obtain ⟨ha, hs⟩ := (r.running?_eq_some_iff _ _ _).mp he
    refine .single (.modify _ _ _ _ ha ⟨rfl, rfl, id, id, fun _ => rfl⟩ ?_)
    exact fun hs' => absurd hs' hs
  | stoppedNothing => exact .single (.rebuffer _)
  | marked he hp =>
    have ha := w.attempt?_of_current he
    refine .tail (.single (.modify _ _ _ _ ha ⟨rfl, rfl, fun _ => rfl, id, id⟩ ?_)) (.rebuffer _)
    exact fun _ => hp
  | tornDown he => exact .tail (.single (.take _ _ _ (w.attempt?_of_current he))) (.rebuffer _)
  | removedCurrent he => exact .tail (.single (.take _ _ _ (w.attempt?_of_current he))) (.rebuffer _)
  | removedSuperseded _ he => exact .single (.take _ _ _ (w.attempt?_of_superseded he _))

namespace WellFormed
variable {r : Registry} (w : r.WellFormed)
include w

theorem next_changes (call : Call) : Changes r (r.next call) := (r.perform_outcome call).changes w

theorem next (call : Call) : (r.next call).WellFormed := (w.next_changes call).wellFormed w

theorem after_changes (calls : List Call) : Changes r (r.after calls) := by
  induction calls generalizing r with
  | nil => exact .refl
  | cons call rest ih => exact (w.next_changes call).trans (ih (w.next call))

theorem after (calls : List Call) : (r.after calls).WellFormed := (w.after_changes calls).wellFormed w

end WellFormed

theorem wellFormed_empty : ({} : Registry).WellFormed where
  tables_distinct role := by cases role <;> exact Table.distinct_empty
  superseded_distinct := Table.distinct_empty
  one_table s role role' h := by cases role <;> cases h
  role_of_table role s e h := by cases role <;> cases h
  attempts_nodup := Multiset.nodup_zero
  attempt_le e h := by cases Multiset.notMem_zero e h
  superseded_key a e h := by cases h
  superseded_stopped a e h := by cases h
  stopped_pending e h := by cases Multiset.notMem_zero e h

end Rostrum.Registry
