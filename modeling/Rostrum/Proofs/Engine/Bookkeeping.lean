import Mathlib
import Rostrum.Proofs.Engine.Ledger

/-!
# The simulated engine keeps exact books

Calls come in and are carried out in any order: an offer waits until its gate is open, others may be
overtaken as well, and a caller may give up before its call is carried out. Carrying out a call is one
step, since nothing in it waits. Main statement: whatever is asked of the engine, its books say what the
replies say, and exactly as many calls fail as were made to.
-/

namespace Rostrum

/-- What happens at a simulated engine. -/
inductive EngineEvent (L : Type) where
  /-- A call comes in and gets the next number. -/
  | arrives (call : EngineCall L)
  /-- A call that came in is carried out, unless its gate is closed. -/
  | proceeds (number : Nat)
  /-- The caller gives up. -/
  | abandoned (number : Nat)
  | failNext (o : Operation) (count : Nat)
  | holdOffers
  | openGate (gate : Nat)
  | takeReached

namespace EngineEvent
variable {L : Type}

def call? : EngineEvent L → Option (EngineCall L)
  | .arrives call => some call
  | _ => none

/-- How many calls of an operation are made to fail. -/
def requests (o : Operation) : EngineEvent L → Nat
  | .failNext o' count => if o' = o then count else 0
  | _ => 0

end EngineEvent

/-- A call that was not carried out yet, with the gate it met. -/
structure UndoneCall (L : Type) where
  call : EngineCall L
  gate : Option Nat

/-- A simulated engine and the calls that came in, by number, as long as they are neither done nor given up. -/
structure BusyEngine (L : Type) where
  engine : SimulatedEngine L
  calls : List (Option (UndoneCall L)) := []

namespace BusyEngine
open Execution
variable {L : Type}

/-- Carries out a call, unless it is not there any more or its gate is closed. -/
def proceed (b : BusyEngine L) (n : Nat) : Option (Execution L) × BusyEngine L :=
  match b.calls[n]? with
  | some (some u) =>
    if u.gate.all b.engine.isOpenGate then
      (some ⟨n, b.engine, u.call⟩, ⟨(b.engine.run u.call).2, b.calls.set n none⟩)
    else (none, b)
  | _ => (none, b)

/-- The call that an event carries out, and what is left. -/
def perform (b : BusyEngine L) : EngineEvent L → Option (Execution L) × BusyEngine L
  | .arrives call =>
    (none, ⟨b.engine.touchGate call, b.calls ++ [some ⟨call, b.engine.gateOf? call⟩]⟩)
  | .proceeds n => b.proceed n
  | .abandoned n => (none, ⟨b.engine, b.calls.set n none⟩)
  | .failNext o count => (none, ⟨b.engine.failNext o count, b.calls⟩)
  | .holdOffers => (none, ⟨b.engine.holdOffers, b.calls⟩)
  | .openGate gate => (none, ⟨b.engine.openGate gate, b.calls⟩)
  | .takeReached => (none, ⟨b.engine.takeReached.2, b.calls⟩)

def after (b : BusyEngine L) (events : List (EngineEvent L)) : BusyEngine L :=
  events.foldl (fun b event => (b.perform event).2) b

/-- The calls that some events carry out, in order. -/
def executed (b : BusyEngine L) : List (EngineEvent L) → List (Execution L)
  | [] => []
  | event :: rest => (b.perform event).1.toList ++ (b.perform event).2.executed rest

theorem after_concat (b : BusyEngine L) (events : List (EngineEvent L)) (event : EngineEvent L) :
    b.after (events ++ [event]) = ((b.after events).perform event).2 := by
  simp [after]

theorem executed_concat (b : BusyEngine L) (events : List (EngineEvent L)) (event : EngineEvent L) :
    b.executed (events ++ [event]) = b.executed events ++ ((b.after events).perform event).1.toList := by
  induction events generalizing b with
  | nil => simp [executed, after]
  | cons first rest ih =>
    have hafter : b.after (first :: rest) = (b.perform first).2.after rest := rfl
    rw [List.cons_append, executed, ih, executed, hafter, List.append_assoc]

theorem proceed_cases (b : BusyEngine L) (n : Nat) : b.proceed n = (none, b) ∨
    ∃ u, b.calls[n]? = some (some u) ∧
      b.proceed n = (some ⟨n, b.engine, u.call⟩, ⟨(b.engine.run u.call).2, b.calls.set n none⟩) := by
  unfold proceed
  split
  · rename_i u hu
    split
    · exact .inr ⟨u, hu, rfl⟩
    · exact .inl rfl
  · exact .inl rfl

/-! ## What an event does to the books -/

/-- An event carries out one call, or adds failures to come at most. -/
inductive Happens (b : BusyEngine L) (event : EngineEvent L) :
    Option (Execution L) → SimulatedEngine L → Prop where
  | carriedOut {x : Execution L} : x.engine = b.engine → (∀ o, event.requests o = 0) →
      Happens b event (some x) x.left
  | nothing {e : SimulatedEngine L} : SimulatedEngine.SameObjects b.engine e →
      e.journal = b.engine.journal → e.doubleReleases = b.engine.doubleReleases →
      (∀ o, e.outstanding o = b.engine.outstanding o + event.requests o) → Happens b event none e

theorem outstanding_failNext (e : SimulatedEngine L) (o o' : Operation) (count : Nat) :
    (e.failNext o count).outstanding o' =
      e.outstanding o' + (EngineEvent.failNext o count : EngineEvent L).requests o' := by
  unfold SimulatedEngine.failNext
  rw [SimulatedEngine.outstanding_put]
  by_cases h : o = o'
  · subst h
    simp [SimulatedEngine.outstanding, EngineEvent.requests]
  · simp [h, EngineEvent.requests]

theorem perform_happens (b : BusyEngine L) (event : EngineEvent L) :
    b.Happens event (b.perform event).1 (b.perform event).2.engine := by
  cases event with
  | proceeds n =>
    rcases b.proceed_cases n with hnone | ⟨u, -, hdone⟩
    · rw [perform, hnone]
      exact .nothing ⟨rfl, rfl, rfl, rfl⟩ rfl rfl fun _ => rfl
    · rw [perform, hdone]
      exact .carriedOut (x := ⟨n, b.engine, u.call⟩) rfl fun _ => rfl
  | failNext o count => exact .nothing ⟨rfl, rfl, rfl, rfl⟩ rfl rfl fun o' => outstanding_failNext _ _ _ _
  | arrives _ | abandoned _ | holdOffers | openGate _ | takeReached =>
    exact .nothing ⟨rfl, rfl, rfl, rfl⟩ rfl rfl fun _ => rfl

/-! ## Whole runs -/

/-- What holds of an engine after some events, and of the calls they carried out. -/
structure Sound (events : List (EngineEvent L)) (e : SimulatedEngine L) (xs : List (Execution L)) :
    Prop where
  exact : e.Exact xs
  journal : e.journal.toList = xs.map Execution.call
  doubleReleases : e.doubleReleases = xs.countP Execution.isDoubleRelease
  outstanding : ∀ o, e.outstanding o + xs.countP (fun x => x.call.operation = o ∧ x.isInjected) =
    (events.map (EngineEvent.requests o)).sum
  unchanged : ∀ x ∈ xs, x.isInjected ∨ x.isStray → SimulatedEngine.SameObjects x.engine x.left

theorem sound_start (style : EngineStyle) : Sound [] ({ style := style } : SimulatedEngine L) [] where
  exact := SimulatedEngine.exact_start style
  journal := rfl
  doubleReleases := rfl
  outstanding _ := rfl
  unchanged := nofun

theorem Sound.concat {b : BusyEngine L} {events : List (EngineEvent L)} {xs : List (Execution L)}
    (s : Sound events b.engine xs) (event : EngineEvent L) :
    Sound (events ++ [event]) (b.perform event).2.engine (xs ++ (b.perform event).1.toList) := by
  have h := b.perform_happens event
  generalize (b.perform event).1 = done at h ⊢
  generalize (b.perform event).2.engine = e at h ⊢
  cases h with
  | nothing hsame hjournal hdouble hfail =>
    rw [Option.toList_none, List.append_nil]
    refine ⟨s.exact.of_same hsame, hjournal ▸ s.journal, hdouble ▸ s.doubleReleases, ?_, s.unchanged⟩
    intro o
    rw [List.map_append, List.sum_append, ← s.outstanding o, hfail o]
    simp
    omega
  | @carriedOut x hx hfail =>
    rw [Option.toList_some]
    rw [← hx] at s
    constructor
    · exact s.exact.carried
    · rw [SimulatedEngine.journal_left, Array.toList_push, s.journal, List.map_append]
      rfl
    · rw [SimulatedEngine.doubleReleases_left, s.doubleReleases, List.countP_append, List.countP_singleton]
    · intro o
      rw [List.map_append, List.sum_append, ← s.outstanding o, ← SimulatedEngine.outstanding_left x o,
        List.countP_append, List.countP_singleton]
      simp [hfail]
      omega
    · intro y hy
      rcases List.mem_append.mp hy with hold | hnew
      · exact s.unchanged y hold
      · cases List.mem_singleton.mp hnew
        exact s.exact.unchanged

theorem sound_after (style : EngineStyle) (events : List (EngineEvent L)) :
    Sound events (BusyEngine.after { engine := { style := style } } events).engine
      (BusyEngine.executed { engine := { style := style } } events) := by
  induction events using List.reverseRecOn with
  | nil => exact sound_start style
  | append_singleton events event ih =>
    rw [after_concat, executed_concat]
    exact ih.concat event

/-! ## Calls are carried out once -/

/-- The calls that came in, by number. -/
def callsOf (events : List (EngineEvent L)) : List (EngineCall L) := events.filterMap EngineEvent.call?

/-- A call that was carried out came in under its number, and is gone. -/
structure Numbered (came : List (EngineCall L)) (calls : List (Option (UndoneCall L)))
    (xs : List (Execution L)) : Prop where
  length : calls.length = came.length
  undone : ∀ (n : Nat) u, calls[n]? = some (some u) → came[n]? = some u.call ∧ n ∉ xs.map Execution.number
  came : ∀ x ∈ xs, came[x.number]? = some x.call
  once : (xs.map Execution.number).Nodup

namespace Numbered
variable {came : List (EngineCall L)} {calls : List (Option (UndoneCall L))} {xs : List (Execution L)}

theorem start : Numbered ([] : List (EngineCall L)) [] [] where
  length := rfl
  undone _ _ h := by cases h
  came := nofun
  once := List.nodup_nil

/-- A call that is gone is not another one's. -/
theorem getElem?_of_gone {n k : Nat} {u : UndoneCall L} (hk : (calls.set n none)[k]? = some (some u)) :
    n ≠ k ∧ calls[k]? = some (some u) := by
  have hne : n ≠ k := by
    rintro rfl
    rw [List.getElem?_set] at hk
    split at hk
    · split at hk <;> cases hk
    · omega
  exact ⟨hne, by rwa [List.getElem?_set_ne hne] at hk⟩

variable (h : Numbered came calls xs)
include h

theorem number_lt {x : Execution L} (hx : x ∈ xs) : x.number < came.length :=
  (List.getElem?_eq_some_iff.mp (h.came x hx)).1

theorem arrives (u : UndoneCall L) : Numbered (came ++ [u.call]) (calls ++ [some u]) xs where
  length := by simp [h.length]
  undone n u' hn := by
    by_cases hlt : n < calls.length
    · rw [List.getElem?_append_left hlt] at hn
      rw [List.getElem?_append_left (h.length ▸ hlt)]
      exact h.undone n u' hn
    · have heq : n = calls.length := by
        have hbound := (List.getElem?_eq_some_iff.mp hn).1
        simp at hbound
        omega
      subst heq
      rw [List.getElem?_concat_length] at hn
      cases hn
      refine ⟨by rw [h.length, List.getElem?_concat_length], ?_⟩
      intro hmem
      obtain ⟨x, hx, hnumber⟩ := List.mem_map.mp hmem
      have hbound := h.number_lt hx
      rw [hnumber, h.length] at hbound
      exact Nat.lt_irrefl _ hbound
  came x hx := by
    rw [List.getElem?_append_left (h.number_lt hx)]
    exact h.came x hx
  once := h.once

theorem gone (n : Nat) : Numbered came (calls.set n none) xs where
  length := by rw [List.length_set, h.length]
  undone k u hk := h.undone k u (getElem?_of_gone hk).2
  came := h.came
  once := h.once

theorem done {n : Nat} {u : UndoneCall L} (hu : calls[n]? = some (some u)) (e : SimulatedEngine L) :
    Numbered came (calls.set n none) (xs ++ [⟨n, e, u.call⟩]) where
  length := by rw [List.length_set, h.length]
  undone k u' hk := by
    obtain ⟨hne, hbefore⟩ := getElem?_of_gone hk
    obtain ⟨hcame, hnot⟩ := h.undone k u' hbefore
    exact ⟨hcame, by simpa [hnot] using hne.symm⟩
  came x hx := by
    rcases List.mem_append.mp hx with hold | hnew
    · exact h.came x hold
    · cases List.mem_singleton.mp hnew
      exact (h.undone n u hu).1
  once := by
    rw [List.map_append]
    apply List.nodup_append.mpr
    refine ⟨h.once, List.nodup_singleton _, ?_⟩
    intro k hk k' hk' heq
    obtain rfl : k' = n := List.mem_singleton.mp hk'
    exact (h.undone k' u hu).2 (heq ▸ hk)

end Numbered

theorem Numbered.perform {came : List (EngineCall L)} {b : BusyEngine L} {xs : List (Execution L)}
    (h : Numbered came b.calls xs) (event : EngineEvent L) :
    Numbered (came ++ event.call?.toList) (b.perform event).2.calls
      (xs ++ (b.perform event).1.toList) := by
  cases event with
  | arrives call => simpa [BusyEngine.perform, EngineEvent.call?] using h.arrives ⟨call, b.engine.gateOf? call⟩
  | proceeds n =>
    rw [BusyEngine.perform, show (EngineEvent.proceeds n : EngineEvent L).call? = none from rfl,
      Option.toList_none, List.append_nil]
    rcases b.proceed_cases n with hnone | ⟨u, hu, hdone⟩
    · rw [hnone]
      simpa using h
    · rw [hdone]
      exact h.done hu b.engine
  | abandoned n => simpa [BusyEngine.perform, EngineEvent.call?] using h.gone n
  | failNext _ _ | holdOffers | openGate _ | takeReached =>
    simpa [BusyEngine.perform, EngineEvent.call?] using h

theorem numbered_after (style : EngineStyle) (events : List (EngineEvent L)) :
    Numbered (callsOf events) (BusyEngine.after { engine := { style := style } } events).calls
      (BusyEngine.executed { engine := { style := style } } events) := by
  induction events using List.reverseRecOn with
  | nil => exact Numbered.start
  | append_singleton events event ih =>
    have hcame : callsOf (events ++ [event]) = callsOf events ++ event.call?.toList := by
      cases h : event.call? <;> simp [callsOf, h]
    rw [after_concat, executed_concat, hcame]
    exact ih.perform event

/-! ## The next calls that fail -/

/-- The calls of an operation among some that were carried out. -/
def ofOperation (o : Operation) (xs : List (Execution L)) : List (Execution L) :=
  xs.filter fun x => x.call.operation = o

/-- As many of the next calls of an operation fail as were made to, and no more unless more are made to. -/
theorem next_calls_fail (o : Operation) (later : List (EngineEvent L)) (b : BusyEngine L) {i : Nat}
    {x : Execution L} (h : (ofOperation o (b.executed later))[i]? = some x) :
    (i < b.engine.outstanding o → x.isInjected) ∧
    ((∀ event ∈ later, event.requests o = 0) → x.isInjected → i < b.engine.outstanding o) := by
  induction later generalizing b i with
  | nil => cases h
  | cons event rest ih =>
    have hevent := b.perform_happens event
    rw [executed] at h
    generalize (b.perform event).1 = done at h hevent
    generalize (b.perform event).2 = b' at h hevent
    have hrest : ∀ {i}, (ofOperation o (b'.executed rest))[i]? = some x →
        (i < b'.engine.outstanding o → x.isInjected) ∧
        ((∀ event' ∈ event :: rest, event'.requests o = 0) → x.isInjected → i < b'.engine.outstanding o) :=
      fun h => ⟨(ih b' h).1, fun hnone => (ih b' h).2 fun event' hmem =>
        hnone event' (List.mem_cons_of_mem _ hmem)⟩
    generalize he : b'.engine = e at hevent hrest
    cases hevent with
    | nothing _ _ _ hmore =>
      obtain ⟨hfirst, hlast⟩ := hrest h
      have hout := hmore o
      refine ⟨fun hi => hfirst (by omega), ?_⟩
      intro hnone hinjected
      have hi := hlast hnone hinjected
      have hzero := hnone event List.mem_cons_self
      omega
    | @carriedOut y hy _ =>
      rw [← hy]
      rw [Option.toList_some, List.singleton_append, ofOperation, List.filter_cons] at h
      by_cases ho : y.call.operation = o
      · subst ho
        rw [if_pos (by simp)] at h
        have hinjected := SimulatedEngine.isInjected_iff y
        cases i with
        | zero =>
          cases h
          exact ⟨hinjected.mpr, fun _ => hinjected.mp⟩
        | succ i =>
          rw [← SimulatedEngine.lt_outstanding_left_iff]
          exact hrest h
      · rw [if_neg (by simpa using ho)] at h
        rw [← SimulatedEngine.outstanding_left_of_ne ho]
        exact hrest h

/-! ## The main statement -/

/--
The books of the simulated engine are exact: names are given once; the live objects are those created and
not released, each of its kind; a double release is counted for every release of an object that is not
live, unless it was made to fail; candidates go to the last subscriber of a live object; the journal
lists the calls that were carried out, each once; failures come when they were asked for; and a call that
fails changes no object and no listener.
-/
theorem books_exact (style : EngineStyle) (events : List (EngineEvent L)) :
    let start : BusyEngine L := { engine := { style := style } }
    let e := (start.after events).engine
    let xs := start.executed events
    ((madeBy xs).map Prod.fst).Nodup ∧
    e.live.entries = (madeBy xs).filter (fun o => o.1 ∉ freedBy xs) ∧
    e.doubleReleases = xs.countP Execution.isDoubleRelease ∧
    (∀ id, e.listener? id = if e.isLive id then (subscribedBy id xs).getLast? else none) ∧
    (e.journal.toList = xs.map Execution.call ∧ (xs.map Execution.number).Nodup ∧
      ∀ x ∈ xs, (callsOf events)[x.number]? = some x.call) ∧
    (∀ o, e.outstanding o + xs.countP (fun x => x.call.operation = o ∧ x.isInjected) =
        (events.map (EngineEvent.requests o)).sum ∧
      ∀ later i x, (ofOperation o ((start.after events).executed later))[i]? = some x →
        (i < e.outstanding o → x.isInjected) ∧
        ((∀ event ∈ later, event.requests o = 0) → x.isInjected → i < e.outstanding o)) ∧
    ∀ x ∈ xs, x.isInjected ∨ x.isStray →
      x.left.live = x.engine.live ∧ x.left.listeners = x.engine.listeners := by
  intro start e xs
  have s := sound_after (L := L) style events
  have h := numbered_after (L := L) style events
  refine ⟨s.exact.distinct, s.exact.live, s.doubleReleases, s.exact.listener,
    ⟨s.journal, h.once, h.came⟩, ?_, ?_⟩
  · intro o
    exact ⟨s.outstanding o, fun later i x hx => next_calls_fail o later (start.after events) hx⟩
  · intro x hx hfails
    have hsame := s.unchanged x hx hfails
    exact ⟨hsame.live, hsame.listeners⟩

end BusyEngine

end Rostrum
