import Rostrum.Proofs.Registry.Ownership

/-!
# Calls that the registry refuses

The calls that may be refused are taken apart here into single reads and writes, where what was written
before a fault stays written. Main statements: taken apart like this they do the same, so a call is
refused before anything is written, but for an endpoint or a port that is noted for a stopped attempt;
and an attempt goes on exactly as long as it is the current one of its session and was not stopped.
-/

namespace Rostrum.Registry

/-- Work on the registry. What was written before a fault stays. -/
abbrev Work := ExceptT NegotiationFault (StateM Registry)

namespace Work

/-- The entry of an attempt whose session was not stopped. -/
def running (s : SessionId) (a : Attempt) : Work Entry := do
  match (← get).running? s a with
  | some e => return e
  | none => throw .stopped

def register (s : SessionId) (role : Role) : Work Attempt := do
  match Registry.entry? (← get) s with
  | some e =>
    if e.stopped then
      modify fun r => r.dropEntry s
      modify fun r => { r with superseded := r.superseded.put e.attempt e }
    else throw (.roleTaken e.role)
  | none => pure ()
  modify fun r => { r with lastAttempt := r.lastAttempt + 1 }
  let a : Attempt := ⟨(← get).lastAttempt⟩
  modify fun r => r.withTable role ((r.table role).put s { attempt := a, role := role })
  return a

def note (s : SessionId) (a : Attempt) (f : Entry → Entry) : Work Unit := do
  match (← get).attempt? s a with
  | some e =>
    modify fun r => r.modifyAttempt s a f
    if e.stopped then throw .stopped
  | none => throw .stopped

def nextCandidate (s : SessionId) (a : Attempt) : Work (Option Candidate) := do
  let _ ← running s a
  match (← get).buffer.pop s with
  | some (c, buffer) =>
    modify fun r => { r with buffer := buffer }
    return some c
  | none =>
    modify fun r => r.clearBuffer s
    -- looked up again: a fault from here on would come after the queue is gone
    let _ ← running s a
    modify fun r => r.modifyAttempt s a fun e => { e with endpointReady := true }
    return none

def finish (s : SessionId) (a : Attempt) : Work Unit := do
  let _ ← running s a
  modify fun r => r.modifyAttempt s a fun e => { e with phase := .ready }

/-- A call, read by read and write by write. The calls that are never refused are taken as they are. -/
def ofCall : Call → Work Answer
  | .register s role => return .entered (← register s role)
  | .setEndpoint s a endpoint => do
    note s a fun e => { e with endpoint := some endpoint }
    return .granted
  | .setPort s a port => do
    note s a fun e => { e with port := some port }
    return .granted
  | .check s a => do
    let _ ← running s a
    return .granted
  | .nextCandidate s a => return .candidate (← nextCandidate s a)
  | .finish s a => do
    finish s a
    return .granted
  | call => modifyGet fun r => r.perform call

section Run
variable {α β : Type} (r : Registry)

theorem run_bind (x : Work α) (f : α → Work β) :
    (x >>= f).run r =
      match x.run r with
      | (.ok a, r') => (f a).run r'
      | (.error fault, r') => (.error fault, r') := by
  change (match x.run r with | (result, r') => ExceptT.bindCont f result r') = _
  rcases x.run r with ⟨_ | _, r'⟩ <;> rfl

theorem run_get : (get : Work Registry).run r = (.ok r, r) := rfl

theorem run_modify (f : Registry → Registry) : (modify f : Work Unit).run r = (.ok (), f r) := rfl

variable (s : SessionId) (a : Attempt)

theorem running_run :
    (running s a).run r =
      match r.running? s a with
      | some e => (.ok e, r)
      | none => (.error .stopped, r) := by
  simp only [running, run_bind, run_get]
  cases r.running? s a <;> rfl

theorem register_run (role : Role) :
    (register s role).run r =
      match r.register s role with
      | .ok (a, r') => (.ok a, r')
      | .error fault => (.error fault, r) := by
  simp only [register, run_bind, run_get]
  unfold Registry.register
  cases r.entry? s with
  | none => cases role <;> rfl
  | some e => cases hs : e.stopped <;> cases role <;> simp only [hs] <;> rfl

theorem note_run (f : Entry → Entry) : (note s a f).run r = r.note s a f := by
  simp only [note, run_bind, run_get]
  unfold Registry.note
  cases r.attempt? s a with
  | none => rfl
  | some e => cases hs : e.stopped <;> simp only [hs, run_bind, run_modify] <;> rfl

theorem nextCandidate_run :
    (nextCandidate s a).run r =
      match r.nextCandidate s a with
      | .ok (c, r') => (.ok c, r')
      | .error fault => (.error fault, r) := by
  simp only [nextCandidate, run_bind, run_get, running_run]
  unfold Registry.nextCandidate
  cases h : r.running? s a with
  | none => rfl
  | some e =>
    dsimp only
    cases r.buffer.pop s with
    | some p => rfl
    | none =>
      have hagain : (r.clearBuffer s).running? s a = some e := h
      simp only [run_bind, run_modify, running_run, hagain]
      rfl

theorem finish_run :
    (finish s a).run r =
      match r.finish s a with
      | .ok r' => (.ok (), r')
      | .error fault => (.error fault, r) := by
  simp only [finish, run_bind, running_run]
  unfold Registry.finish
  cases r.running? s a <;> rfl

end Run

end Work

def Answer.result : Answer → Except NegotiationFault Answer
  | .refused fault => .error fault
  | answer => .ok answer

/-- Read by read and write by write, a call comes to the same. -/
theorem work_run (r : Registry) (call : Call) :
    (Work.ofCall call).run r = ((r.answer call).result, r.next call) := by
  cases call with
  | register s role =>
    simp only [Work.ofCall, Work.run_bind, Work.register_run, answer, next, perform]
    rcases r.register s role with _ | ⟨a, r'⟩ <;> rfl
  | setEndpoint s a endpoint =>
    simp only [Work.ofCall, Work.run_bind, Work.note_run, answer, next, perform, setEndpoint]
    rcases r.note s a _ with ⟨_ | _, r'⟩ <;> rfl
  | setPort s a port =>
    simp only [Work.ofCall, Work.run_bind, Work.note_run, answer, next, perform, setPort]
    rcases r.note s a _ with ⟨_ | _, r'⟩ <;> rfl
  | check s a =>
    simp only [Work.ofCall, Work.run_bind, Work.running_run, answer, next, perform, check]
    cases r.running? s a <;> rfl
  | nextCandidate s a =>
    simp only [Work.ofCall, Work.run_bind, Work.nextCandidate_run, answer, next, perform]
    rcases r.nextCandidate s a with _ | ⟨c, r'⟩ <;> rfl
  | finish s a =>
    simp only [Work.ofCall, Work.run_bind, Work.finish_run, answer, next, perform]
    cases r.finish s a <;> rfl
  | submit s c => rfl
  | stop s => rfl
  | remove s a => rfl

/-! ## What goes on -/

/-- The calls that a negotiation makes only while it goes on. -/
def Call.continuing (s : SessionId) (a : Attempt) : List Call :=
  [.check s a, .nextCandidate s a, .finish s a]

section Continuing
variable {r : Registry} {s : SessionId} {a : Attempt} {call : Call}

theorem perform_of_not_running (h : r.running? s a = none) (hcall : call ∈ Call.continuing s a) :
    r.perform call = (.refused .stopped, r) := by
  simp only [Call.continuing, List.mem_cons, List.not_mem_nil, or_false] at hcall
  rcases hcall with rfl | rfl | rfl
  · simp [perform, check, h, Answer.ofUnit]
  · simp [perform, nextCandidate, h]
  · simp [perform, finish, h]

theorem not_refused_of_running {e : Entry} (h : r.running? s a = some e)
    (hcall : call ∈ Call.continuing s a) (fault : NegotiationFault) :
    r.answer call ≠ .refused fault := by
  simp only [Call.continuing, List.mem_cons, List.not_mem_nil, or_false] at hcall
  rcases hcall with rfl | rfl | rfl
  · simp [answer, perform, check, h, Answer.ofUnit]
  · simp only [answer, perform, nextCandidate, h]
    cases r.buffer.pop s <;> simp
  · simp [answer, perform, finish, h]

theorem WellFormed.running?_iff (w : r.WellFormed) {e : Entry} :
    r.running? s a = some e ↔ r.entry? s = some e ∧ e.attempt = a ∧ ¬ e.stopped := by
  rw [running?_eq_some_iff]
  constructor
  · rintro ⟨h, hs⟩
    exact ⟨w.isCurrent_of_attempt? h hs, (w.mem_of_attempt? h).2, hs⟩
  · rintro ⟨h, rfl, hs⟩
    exact ⟨w.attempt?_of_current h, hs⟩

theorem WellFormed.refused_iff (w : r.WellFormed) (hcall : call ∈ Call.continuing s a) :
    (∃ fault, r.answer call = .refused fault) ↔
      ¬ ∃ e, r.entry? s = some e ∧ e.attempt = a ∧ ¬ e.stopped := by
  cases h : r.running? s a with
  | none =>
    have hno : ¬ ∃ e, r.entry? s = some e ∧ e.attempt = a ∧ ¬ e.stopped := by
      rintro ⟨e, he⟩
      rw [← w.running?_iff, h] at he
      cases he
    exact iff_of_true ⟨.stopped, congrArg Prod.fst (perform_of_not_running h hcall)⟩ hno
  | some e =>
    refine iff_of_false ?_ (not_not_intro ⟨e, w.running?_iff.mp h⟩)
    rintro ⟨fault, hf⟩
    exact not_refused_of_running h hcall fault hf

end Continuing

/-- An attempt that is over: stopped, superseded, handed out, or never given out at all. -/
inductive Over (log : List Deed) (r : Registry) (a : Attempt) : Prop where
  | stopped (e : Entry) : e ∈ r.entries → e.attempt = a → e.stopped → Over log r a
  | superseded : r.superseded.contains a → Over log r a
  | handedOut (e : Entry) : e ∈ handedOut log → e.attempt = a → Over log r a
  | unissued : (∀ s, (s, a) ∉ issued log) → Over log r a

theorem Accounted.running?_of_over {log : List Deed} {r : Registry} (h : Accounted log r)
    {a : Attempt} (hover : Over log r a) (s : SessionId) : r.running? s a = none := by
  rw [Option.eq_none_iff_forall_ne_some]
  intro e he
  obtain ⟨hcur, rfl, hs⟩ := h.wellFormed.running?_iff.mp he
  cases hover with
  | stopped x hx hxa hxs =>
    obtain rfl := h.wellFormed.eq_of_attempt_eq hx (mem_entries_of_current hcur) hxa
    exact hs hxs
  | superseded hsup =>
    rw [Table.contains, h.wellFormed.superseded_of_current hcur] at hsup
    cases hsup
  | handedOut x hx hxa => exact h.not_stored_of_handedOut (mem_entries_of_current hcur) hx hxa.symm
  | unissued hno => exact hno s (h.current_issued s e hcur)

/-! ## What is noted for a stopped attempt -/

/-- What a refused note leaves: it is in the one entry of the attempt, which is stopped, or nowhere. -/
inductive NotedStopped (r : Registry) (s : SessionId) (a : Attempt) (f : Entry → Entry) :
    Registry → Prop where
  | current (e : Entry) : r.entry? s = some e → e.attempt = a → e.stopped →
      (∀ x ∈ r.entries, x.attempt = a → x = e) →
      NotedStopped r s a f (r.withTable e.role ((r.table e.role).put s (f e)))
  | superseded (e : Entry) : r.superseded.get? a = some e → e.attempt = a → e.stopped →
      (∀ x ∈ r.entries, x.attempt = a → x = e) →
      NotedStopped r s a f { r with superseded := r.superseded.put a (f e) }
  | nowhere : (∀ e, r.entry? s = some e → e.attempt ≠ a) → r.superseded.get? a = none →
      NotedStopped r s a f r

theorem WellFormed.note_refused {r : Registry} (w : r.WellFormed) {s : SessionId} {a : Attempt}
    {f : Entry → Entry} {fault : NegotiationFault} (h : (r.note s a f).1 = .error fault) :
    fault = .stopped ∧ NotedStopped r s a f (r.note s a f).2 := by
  rcases r.note_cases s a f with ⟨e, he, hr⟩ | ⟨hnone, hr⟩
  · rw [hr] at h ⊢
    obtain ⟨ha, hplace⟩ := w.attempt?_eq_some_iff.mp he
    have honly : ∀ x ∈ r.entries, x.attempt = a → x = e := fun x hx hxa => w.eq_of_attempt? he hx hxa
    have hs : e.stopped := by
      by_contra hno
      simp [hno] at h
    simp only [hs, if_true, Except.error.injEq] at h
    refine ⟨h.symm, ?_⟩
    cases hc : r.isCurrent s a with
    | true =>
      have hcur : r.entry? s = some e := by simpa [attempt?, hc] using he
      rw [Registry.modifyAttempt, hc, if_pos rfl, w.modifyEntry_eq hcur]
      exact .current e hcur ha hs honly
    | false =>
      have hsup : r.superseded.get? a = some e := by simpa [attempt?, hc] using he
      simp only [Registry.modifyAttempt, hc, Bool.false_eq_true, if_false, Table.modify_of_get? hsup]
      exact .superseded e hsup ha hs honly
  · rw [hr] at h ⊢
    refine ⟨(Except.error.inj h).symm, .nowhere (fun e he ha => ?_) ?_⟩
    · rw [← ha, w.attempt?_of_current he] at hnone
      cases hnone
    · cases hsup : r.superseded.get? a with
      | none => rfl
      | some e =>
        rw [w.attempt?_of_superseded hsup] at hnone
        cases hnone

theorem next_of_refused {r : Registry} {call : Call} {fault : NegotiationFault}
    (h : r.answer call = .refused fault) (hstores : ¬ call.stores) : r.next call = r := by
  have ho := r.perform_outcome call
  revert h ho
  generalize r.answer call = ans
  generalize r.next call = r'
  intro h ho
  cases ho with
  | roleTaken | checkedStopped | drainStopped | finishStopped => rfl
  | endpointSet | endpointUnknown | portSet | portUnknown => exact absurd rfl hstores
  | _ => cases h

theorem ofUnit_eq_refused {result : Except NegotiationFault Unit} {fault : NegotiationFault}
    (h : Answer.ofUnit result = .refused fault) : result = .error fault := by
  cases result with
  | error f => exact congrArg _ (Answer.refused.inj h)
  | ok u => cases h

/--
Whatever calls were made, a call that is refused writes nothing, read by read and write by write, but
for an endpoint or a port: that is noted in the one stopped entry of the attempt, and nowhere else.
A negotiation goes on exactly as long as its attempt is the current one of its session and was not
stopped, so an attempt that is over takes no candidate, makes no endpoint ready and finishes nothing.
-/
theorem refused_calls_write_nothing (calls : List Call) :
    let r := ({} : Registry).after calls
    (∀ call, (Work.ofCall call).run r = ((r.answer call).result, r.next call)) ∧
    (∀ call fault, r.answer call = .refused fault → ¬ call.stores → r.next call = r) ∧
    (∀ s a, ∀ call ∈ Call.continuing s a,
      (∃ fault, r.answer call = .refused fault) ↔
        ¬ ∃ e, r.entry? s = some e ∧ e.attempt = a ∧ ¬ e.stopped) ∧
    (∀ a, Over (log {} calls) r a → ∀ s, ∀ call ∈ Call.continuing s a,
      r.perform call = (.refused .stopped, r)) ∧
    (∀ s a endpoint fault, r.answer (.setEndpoint s a endpoint) = .refused fault →
      fault = .stopped ∧ NotedStopped r s a (fun e => { e with endpoint := some endpoint })
        (r.next (.setEndpoint s a endpoint))) ∧
    (∀ s a port fault, r.answer (.setPort s a port) = .refused fault →
      fault = .stopped ∧ NotedStopped r s a (fun e => { e with port := some port })
        (r.next (.setPort s a port))) := by
  intro r
  have h : Accounted (log {} calls) r := accounted calls
  have w : r.WellFormed := h.wellFormed
  refine ⟨r.work_run, fun _ _ => next_of_refused, fun s a call => w.refused_iff, ?_, ?_, ?_⟩
  · intro a hover s call
    exact perform_of_not_running (h.running?_of_over hover s)
  · intro s a endpoint fault hf
    exact w.note_refused (ofUnit_eq_refused hf)
  · intro s a port fault hf
    exact w.note_refused (ofUnit_eq_refused hf)

end Rostrum.Registry
