import Rostrum.Proofs.Registry.Path

/-!
# What a call leaves to other sessions

A call is made for one session. It leaves to every other session its place in the tables, its queue and
its superseded entries. And once a session has no queue, only a candidate of its own makes a new one.
-/

namespace Rostrum.Registry

/-- Where a session stands in the tables, and its queue, are the same. -/
structure SameFor (s : SessionId) (r r' : Registry) : Prop where
  tables : ∀ role, (r'.table role).get? s = (r.table role).get? s
  queue : r'.buffer.queues.get? s = r.buffer.queues.get? s

namespace SameFor
variable {s : SessionId} {r r' r'' : Registry}

theorem refl (s : SessionId) (r : Registry) : SameFor s r r := ⟨fun _ => rfl, rfl⟩

theorem trans (h : SameFor s r r') (h' : SameFor s r' r'') : SameFor s r r'' :=
  ⟨fun role => (h'.tables role).trans (h.tables role), h'.queue.trans h.queue⟩

end SameFor

section Tables
variable {r : Registry} {s s' : SessionId} (hne : s' ≠ s)
include hne

theorem sameFor_modifyEntry (f : Entry → Entry) : SameFor s r (r.modifyEntry s' f) := by
  constructor
  · intro role
    unfold modifyEntry
    split
    · cases role
      · exact (Table.get?_modify ..).trans (if_neg hne)
      · rfl
    · cases role
      · rfl
      · exact (Table.get?_modify ..).trans (if_neg hne)
  · rw [modifyEntry_buffer]

theorem sameFor_modifyAttempt (a : Attempt) (f : Entry → Entry) :
    SameFor s r (r.modifyAttempt s' a f) := by
  unfold modifyAttempt
  split
  · exact sameFor_modifyEntry hne f
  · exact ⟨fun role => by cases role <;> rfl, rfl⟩

theorem sameFor_dropEntry : SameFor s r (r.dropEntry s') := by
  constructor
  · intro role
    unfold dropEntry
    split
    · cases role
      · exact Table.get?_erase_of_ne _ hne
      · rfl
    · cases role
      · rfl
      · exact Table.get?_erase_of_ne _ hne
  · rw [dropEntry_buffer]

theorem sameFor_takeOut (a : Attempt) : SameFor s r (r.takeOut s' a) := by
  unfold takeOut
  split
  · exact sameFor_dropEntry hne
  · exact ⟨fun role => by cases role <;> rfl, rfl⟩

theorem sameFor_clearBuffer : SameFor s r (r.clearBuffer s') :=
  ⟨fun role => by cases role <;> rfl, Table.get?_erase_of_ne _ hne⟩

theorem sameFor_addAttempt (role : Role) : SameFor s r (r.addAttempt s' role).2 := by
  constructor
  · intro role'
    cases role
    · cases role'
      · exact Table.get?_put_of_ne _ _ hne
      · rfl
    · cases role'
      · rfl
      · exact Table.get?_put_of_ne _ _ hne
  · rw [addAttempt_buffer]

theorem sameFor_supersede (e : Entry) : SameFor s r (r.supersede s' e) := by
  have h : SameFor s r (r.dropEntry s') := sameFor_dropEntry hne
  exact ⟨fun role => (by cases role <;> rfl : _ = _).trans (h.tables role), h.queue⟩

/-- A call that is made for another session. -/
theorem sameFor_next {call : Call} (hcall : call.session = s') : SameFor s r (r.next call) := by
  have ho := r.perform_outcome call
  generalize r.answer call = ans at ho
  generalize r.next call = r' at ho
  subst hcall
  cases ho with
  | roleTaken | endpointUnknown | portUnknown | checked | checkedStopped | drainStopped | applied
  | finishStopped | removedNothing => exact .refl s r
  | entered => exact sameFor_addAttempt hne _
  | enteredAnew => exact (sameFor_supersede hne _).trans (sameFor_addAttempt hne _)
  | endpointSet | portSet | finished => exact sameFor_modifyAttempt hne _ _
  | popped _ hpop =>
    obtain ⟨rest, _, rfl⟩ := CandidateBuffer.pop_eq_some_iff.mp hpop
    exact ⟨fun role => by cases role <;> rfl, Table.get?_put_of_ne _ _ hne⟩
  | drained | marked => exact (sameFor_modifyAttempt hne _ _).trans (sameFor_clearBuffer hne)
  | buffered => exact ⟨fun role => by cases role <;> rfl, Table.get?_put_of_ne _ _ hne⟩
  | stoppedNothing => exact sameFor_clearBuffer hne
  | tornDown | removedCurrent => exact (sameFor_takeOut hne _).trans (sameFor_clearBuffer hne)
  | removedSuperseded => exact sameFor_takeOut hne _

theorem sameFor_after {calls : List Call} (hcalls : ∀ call ∈ calls, call.session = s') :
    SameFor s r (r.after calls) := by
  induction calls generalizing r with
  | nil => exact .refl s r
  | cons call rest ih =>
    have hfirst : SameFor s r (r.next call) := sameFor_next hne (hcalls call List.mem_cons_self)
    exact hfirst.trans (ih fun call' hmem => hcalls call' (List.mem_cons_of_mem _ hmem))

end Tables

/-! ## Queues -/

section Queue
variable {r : Registry} {s : SessionId} (h : r.buffer.queues.get? s = none)
include h

theorem queue_none_next {call : Call} (hno : ∀ c, call ≠ .submit s c) :
    (r.next call).buffer.queues.get? s = none := by
  by_cases hs : call.session = s
  · have ho := r.perform_outcome call
    generalize r.answer call = ans at ho
    generalize r.next call = r' at ho
    subst hs
    cases ho with
    | roleTaken | endpointUnknown | portUnknown | checked | checkedStopped | drainStopped | applied
    | finishStopped | removedNothing => exact h
    | entered => rwa [addAttempt_buffer]
    | enteredAnew => rwa [addAttempt_buffer, supersede_buffer]
    | endpointSet | portSet | finished => rwa [modifyAttempt_buffer]
    | popped _ hpop =>
      -- an absent queue has nothing to give
      obtain ⟨rest, hwaiting, _⟩ := CandidateBuffer.pop_eq_some_iff.mp hpop
      have hempty : r.buffer.waiting _ = [] := congrArg (fun queue => queue.getD []) h
      exact nomatch hempty.symm.trans hwaiting
    | drained | marked | stoppedNothing | tornDown | removedCurrent => exact Table.get?_erase_self _ _
    | buffered => exact absurd rfl (hno _)
    | removedSuperseded => rwa [takeOut_buffer]
  · exact (sameFor_next hs rfl).queue.trans h

theorem queue_none_after {calls : List Call} (hno : ∀ c, .submit s c ∉ calls) :
    (r.after calls).buffer.queues.get? s = none := by
  induction calls generalizing r with
  | nil => exact h
  | cons call rest ih =>
    refine ih (queue_none_next h ?_) fun c hmem => hno c (List.mem_cons_of_mem _ hmem)
    rintro c rfl
    exact hno c List.mem_cons_self

end Queue

/-! ## Superseded entries -/

theorem WellFormed.superseded_next {r : Registry} (w : r.WellFormed) {call : Call} {a : Attempt}
    (hcurrent : ∀ e, r.entry? call.session = some e → e.attempt ≠ a) (hnamed : call.attempt? ≠ some a) :
    (r.next call).superseded.get? a = r.superseded.get? a := by
  have hkey : ∀ x, r.superseded.get? a = some x → x.attempt = a := fun x => w.superseded_key a x
  -- a change of another attempt does not meet the entry that stands under this one
  have hmodify : ∀ {s a' e} (f : Entry → Entry), r.attempt? s a' = some e → a' ≠ a →
      (r.modifyAttempt s a' f).superseded.get? a = r.superseded.get? a := by
    intro s a' e f he hne
    rw [w.superseded_modifyAttempt he]
    cases hx : r.superseded.get? a with
    | none => rfl
    | some x => simp [hkey x hx, Ne.symm hne]
  have htake : ∀ {s a' e}, r.attempt? s a' = some e → a' ≠ a →
      (r.takeOut s a').superseded.get? a = r.superseded.get? a := by
    intro s a' e he hne
    rw [w.superseded_takeOut he]
    cases hx : r.superseded.get? a with
    | none => rfl
    | some x => simp [Option.filter_some, hkey x hx, Ne.symm hne]
  have ho := r.perform_outcome call
  generalize r.answer call = ans at ho
  generalize r.next call = r' at ho
  cases ho with
  | roleTaken | endpointUnknown | portUnknown | checked | checkedStopped | popped | drainStopped
  | applied | buffered | finishStopped | stoppedNothing | removedNothing => rfl
  | entered => rw [addAttempt_superseded]
  | enteredAnew he =>
    rw [addAttempt_superseded]
    refine (Table.get?_put_of_ne _ _ (hcurrent _ he)).trans ?_
    rw [dropEntry_superseded]
  | endpointSet he | portSet he => exact hmodify _ he fun ha => hnamed (congrArg some ha)
  | finished he | drained he =>
    exact hmodify _ (attempt?_of_running he) fun ha => hnamed (congrArg some ha)
  | marked he => exact hmodify _ (w.attempt?_of_current he) (hcurrent _ he)
  | tornDown he => exact htake (w.attempt?_of_current he) (hcurrent _ he)
  | removedCurrent he => exact htake (w.attempt?_of_current he) (hcurrent _ he)
  | removedSuperseded _ he => exact htake (w.attempt?_of_superseded he _) fun ha => hnamed (congrArg some ha)

/-- The calls of a session leave the superseded entries of others. -/
theorem Accounted.superseded_after {log : List Deed} {r : Registry} (h : Accounted log r)
    {s : SessionId} {calls : List Call} (hcalls : ∀ call ∈ calls, call.session = s) {a : Attempt}
    (hnamed : ∀ call ∈ calls, call.attempt? ≠ some a) (ha : (s, a) ∉ issued (log ++ r.log calls)) :
    (r.after calls).superseded.get? a = r.superseded.get? a := by
  induction calls generalizing log r with
  | nil => rfl
  | cons call rest ih =>
    have hs : call.session = s := hcalls call List.mem_cons_self
    have hlog : log ++ r.log (call :: rest) = log ++ [⟨r, call⟩] ++ (r.next call).log rest := by
      rw [List.append_assoc]
      rfl
    have hfirst : (r.next call).superseded.get? a = r.superseded.get? a := by
      refine h.wellFormed.superseded_next ?_ (hnamed call List.mem_cons_self)
      intro e he hea
      rw [hs] at he
      have hissued : (s, a) ∈ issued log := hea ▸ h.current_issued s e he
      refine ha ?_
      rw [issued, List.flatMap_append]
      exact List.mem_append_left _ hissued
    have hrest := ih (h.next call) (fun call' hmem => hcalls call' (List.mem_cons_of_mem _ hmem))
      (fun call' hmem => hnamed call' (List.mem_cons_of_mem _ hmem)) (hlog ▸ ha)
    exact hrest.trans hfirst

end Rostrum.Registry
