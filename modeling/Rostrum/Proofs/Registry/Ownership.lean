import Mathlib.Data.List.Induction
import Rostrum.Proofs.Registry.Shape

/-!
# Every attempt has one owner

A log of calls says which attempts were given out, to which session, and which entries the registry
has handed out again. The attempts in the registry and those handed out are together exactly those
given out, each once; and an entry carries what was last stored for its attempt.
-/

namespace Rostrum

/-- What an entry carries: its attempt and the objects that were stored for it. -/
abbrev Cargo := Attempt × Option Endpoint × Option MixerPort

def Entry.cargo (e : Entry) : Cargo := (e.attempt, e.endpoint, e.port)

theorem Entry.cargo_eq_iff {e e' : Entry} :
    e.cargo = e'.cargo ↔ e.attempt = e'.attempt ∧ e.endpoint = e'.endpoint ∧ e.port = e'.port := by
  simp [Entry.cargo]

namespace Registry

/-- A call, with the registry it was made to. -/
structure Deed where
  before : Registry
  call : Call

namespace Deed

def answer (d : Deed) : Answer := d.before.answer d.call

/-- The attempt a call gives out, with the session that gets it. -/
def issued (d : Deed) : List (SessionId × Attempt) :=
  match d.call, d.answer with
  | .register s _, .entered a => [(s, a)]
  | _, _ => []

/-- The entry a call hands out. -/
def handedOut (d : Deed) : List Entry :=
  match d.answer with
  | .action (.teardown e) => [e]
  | .removed (some e) => [e]
  | _ => []

theorem handedOut_remove (r : Registry) (s : SessionId) (a : Attempt) :
    (Deed.mk r (.remove s a)).handedOut = (r.remove s a).1.toList := by
  unfold handedOut answer
  rw [answer_remove]
  cases (r.remove s a).1 <;> rfl

theorem handedOut_stop (r : Registry) (s : SessionId) :
    (Deed.mk r (.stop s)).handedOut =
      match (r.stop s).1 with
      | .teardown e => [e]
      | _ => [] := by
  unfold handedOut answer
  rw [answer_stop]
  cases (r.stop s).1 <;> rfl

theorem handedOut_eq_nil {d : Deed} (h : ¬ d.call.takes) : d.handedOut = [] := by
  have ho := d.before.perform_outcome d.call
  unfold handedOut answer
  revert ho h
  generalize d.before.answer d.call = ans
  generalize d.before.next d.call = r'
  generalize d.call = call
  intro h ho
  cases ho with
  | endpointSet | portSet => split_ifs <;> rfl
  | marked | tornDown | stoppedNothing | removedNothing | removedCurrent | removedSuperseded =>
    exact absurd rfl h
  | _ => rfl

/-- The endpoint a call stores for an attempt: the registry has to find an entry for it. -/
def endpointFor (d : Deed) (a : Attempt) : Option Endpoint :=
  match d.call with
  | .setEndpoint s a' endpoint =>
    if a' = a ∧ (d.before.attempt? s a').isSome then some endpoint else none
  | _ => none

/-- The mixer port a call stores for an attempt. -/
def portFor (d : Deed) (a : Attempt) : Option MixerPort :=
  match d.call with
  | .setPort s a' port => if a' = a ∧ (d.before.attempt? s a').isSome then some port else none
  | _ => none

end Deed

/-- What is done when calls are made one after the other. -/
def log (r : Registry) : List Call → List Deed
  | [] => []
  | call :: rest => ⟨r, call⟩ :: (r.next call).log rest

def issued (log : List Deed) : List (SessionId × Attempt) := log.flatMap Deed.issued

def handedOut (log : List Deed) : List Entry := log.flatMap Deed.handedOut

def lastEndpoint (log : List Deed) (a : Attempt) : Option Endpoint :=
  (log.filterMap fun d => d.endpointFor a).getLast?

def lastPort (log : List Deed) (a : Attempt) : Option MixerPort :=
  (log.filterMap fun d => d.portFor a).getLast?

theorem after_cons (r : Registry) (call : Call) (rest : List Call) :
    r.after (call :: rest) = (r.next call).after rest := rfl

theorem log_calls (r : Registry) (calls : List Call) : (r.log calls).map Deed.call = calls := by
  induction calls generalizing r with
  | nil => rfl
  | cons call rest ih => exact congrArg (List.cons call) (ih (r.next call))

theorem call_of_mem_log {r : Registry} {calls : List Call} {d : Deed} (h : d ∈ r.log calls) :
    d.call ∈ calls := by
  rw [← r.log_calls calls]
  exact List.mem_map_of_mem h

theorem log_append (r : Registry) (calls : List Call) (call : Call) :
    r.log (calls ++ [call]) = r.log calls ++ [⟨r.after calls, call⟩] := by
  induction calls generalizing r with
  | nil => rfl
  | cons c rest ih => exact congrArg (List.cons _) (ih (r.next c))

theorem after_append (r : Registry) (calls : List Call) (call : Call) :
    r.after (calls ++ [call]) = (r.after calls).next call :=
  List.foldl_append

theorem log_split {r : Registry} {calls : List Call} {earlier later : List Deed} {d : Deed}
    (h : r.log calls = earlier ++ d :: later) :
    ∃ made, earlier = r.log made ∧ d.before = r.after made := by
  induction earlier generalizing r calls with
  | nil =>
    cases calls with
    | nil => cases h
    | cons c rest =>
      obtain ⟨rfl, _⟩ := List.cons.inj h
      exact ⟨[], rfl, rfl⟩
  | cons d' earlier ih =>
    cases calls with
    | nil => cases h
    | cons c rest =>
      obtain ⟨rfl, hrest⟩ := List.cons.inj h
      obtain ⟨made, hlog, hbefore⟩ := ih hrest
      exact ⟨c :: made, congrArg (List.cons _) hlog, hbefore⟩

theorem getLast?_filterMap_append {α β : Type} (f : α → Option β) (xs : List α) (x : α) :
    ((xs ++ [x]).filterMap f).getLast? = (f x).or (xs.filterMap f).getLast? := by
  cases h : f x <;> simp [List.filterMap_append, h]

theorem lastEndpoint_append (log : List Deed) (d : Deed) (a : Attempt) :
    lastEndpoint (log ++ [d]) a = (d.endpointFor a).or (lastEndpoint log a) :=
  getLast?_filterMap_append _ log d

theorem lastPort_append (log : List Deed) (d : Deed) (a : Attempt) :
    lastPort (log ++ [d]) a = (d.portFor a).or (lastPort log a) :=
  getLast?_filterMap_append _ log d

theorem issued_append (log : List Deed) (d : Deed) : issued (log ++ [d]) = issued log ++ d.issued := by
  simp [issued]

theorem handedOut_log_singleton (r : Registry) (call : Call) :
    handedOut (r.log [call]) = (Deed.mk r call).handedOut :=
  List.append_nil _

theorem handedOut_append (log : List Deed) (d : Deed) :
    handedOut (log ++ [d]) = handedOut log ++ d.handedOut := by
  simp [handedOut]

/-- An attempt is given out to a session that is entered. -/
theorem Deed.call_of_issued {d : Deed} {s : SessionId} {a : Attempt} (h : (s, a) ∈ d.issued) :
    ∃ role, d.call = .register s role := by
  unfold Deed.issued at h
  split at h
  · rename_i hcall _
    obtain ⟨rfl, _⟩ := Prod.mk.inj (List.mem_singleton.mp h)
    exact ⟨_, hcall⟩
  · cases h

theorem issued_next {r : Registry} {call : Call} {s : SessionId} {a : Attempt}
    (h : (s, a) ∈ (Deed.mk r call).issued) :
    a.number = r.lastAttempt + 1 ∧ (r.next call).lastAttempt = r.lastAttempt + 1 := by
  have ho := r.perform_outcome call
  unfold Deed.issued Deed.answer at h
  revert ho h
  generalize r.answer call = ans
  generalize r.next call = r'
  intro h ho
  cases ho with
  | entered he =>
    obtain ⟨rfl, rfl⟩ := Prod.mk.inj (List.mem_singleton.mp h)
    exact ⟨rfl, addAttempt_lastAttempt _ _ _⟩
  | @enteredAnew s' role e he hs =>
    obtain ⟨rfl, rfl⟩ := Prod.mk.inj (List.mem_singleton.mp h)
    exact ⟨rfl, (addAttempt_lastAttempt _ _ _).trans (congrArg (· + 1) (supersede_lastAttempt r _ _))⟩
  | _ => cases h

namespace WellFormed
variable {r : Registry} (w : r.WellFormed)
include w

theorem cargo_modifyAttempt {s : SessionId} {a : Attempt} {e : Entry} (h : r.attempt? s a = some e)
    {f : Entry → Entry} (hf : (f e).cargo = e.cargo) :
    (r.modifyAttempt s a f).entries.map Entry.cargo = r.entries.map Entry.cargo := by
  obtain ⟨rest, hold, hnew⟩ := w.entries_modifyAttempt h f
  rw [hold, hnew, Multiset.map_cons, Multiset.map_cons, hf]

theorem cargo_takeOut {s : SessionId} {a : Attempt} {e : Entry} (h : r.attempt? s a = some e) :
    (r.takeOut s a).entries.map Entry.cargo + ([e.cargo] : List Cargo) = r.entries.map Entry.cargo := by
  rw [w.entries_takeOut h, Multiset.map_cons, Multiset.coe_singleton, add_comm,
    Multiset.singleton_add]

/-- Entries come in empty and go out as they are, unless a call stores something. -/
theorem cargo_next {call : Call} (hstores : ¬ call.stores) :
    (r.next call).entries.map Entry.cargo +
        ((Deed.mk r call).handedOut.map Entry.cargo : List Cargo) =
      r.entries.map Entry.cargo +
        ((Deed.mk r call).issued.map fun x => (x.2, none, none) : List Cargo) := by
  have ho := r.perform_outcome call
  unfold Deed.handedOut Deed.issued Deed.answer
  revert ho
  generalize r.answer call = ans
  generalize r.next call = r'
  intro ho
  cases ho with
  | endpointSet | portSet | endpointUnknown | portUnknown => exact absurd rfl hstores
  | roleTaken | checked | checkedStopped | drainStopped | applied | finishStopped | removedNothing
  | popped | buffered | stoppedNothing => rfl
  | entered he =>
    rw [w.entries_addAttempt he, Multiset.map_cons, ← Multiset.singleton_add]
    simp [newEntry, Entry.cargo, add_comm]
  | @enteredAnew s role e he hs =>
    have hnone := w.entry?_supersede_self he
    rw [(w.supersede he hs).entries_addAttempt hnone, w.entries_supersede he, Multiset.map_cons,
      ← Multiset.singleton_add]
    simp [newEntry, Entry.cargo, add_comm]
  | drained he | finished he =>
    exact congrArg (· + _) (w.cargo_modifyAttempt (attempt?_of_running he) rfl)
  | marked he => exact congrArg (· + _) (w.cargo_modifyAttempt (w.attempt?_of_current he) rfl)
  | tornDown he | removedCurrent he =>
    exact (w.cargo_takeOut (w.attempt?_of_current he)).trans (add_zero _).symm
  | @removedSuperseded s a e _ he =>
    exact (w.cargo_takeOut (w.attempt?_of_superseded he s)).trans (add_zero _).symm

/-- A call that stores something finds the entry, and puts it there, or leaves all as it is. -/
theorem stores_next {call : Call} (hstores : call.stores) :
    r.next call = r ∧ (∀ a, (Deed.mk r call).endpointFor a = none ∧ (Deed.mk r call).portFor a = none) ∨
    ∃ e e' rest, r.entries = e ::ₘ rest ∧ (r.next call).entries = e' ::ₘ rest ∧
      e'.attempt = e.attempt ∧
      e'.endpoint = ((Deed.mk r call).endpointFor e.attempt).or e.endpoint ∧
      e'.port = ((Deed.mk r call).portFor e.attempt).or e.port ∧
      ∀ a ≠ e.attempt, (Deed.mk r call).endpointFor a = none ∧ (Deed.mk r call).portFor a = none := by
  have ho := r.perform_outcome call
  revert ho
  generalize r.answer call = ans
  generalize r.next call = r'
  intro ho
  cases ho with
  | endpointUnknown he => exact Or.inl ⟨rfl, by simp [Deed.endpointFor, Deed.portFor, he]⟩
  | portUnknown he => exact Or.inl ⟨rfl, by simp [Deed.endpointFor, Deed.portFor, he]⟩
  | @endpointSet s a endpoint e he =>
    have ha := (w.mem_of_attempt? he).2
    obtain ⟨rest, hold, hnew⟩ := w.entries_modifyAttempt he
      (fun e => { e with endpoint := some endpoint })
    refine Or.inr ⟨e, _, rest, hold, hnew, rfl, ?_, rfl, ?_⟩
    · simp [Deed.endpointFor, he, ha]
    · intro a' hne
      rw [ha] at hne
      exact ⟨by simp [Deed.endpointFor, Ne.symm hne], rfl⟩
  | @portSet s a port e he =>
    have ha := (w.mem_of_attempt? he).2
    obtain ⟨rest, hold, hnew⟩ := w.entries_modifyAttempt he (fun e => { e with port := some port })
    refine Or.inr ⟨e, _, rest, hold, hnew, rfl, rfl, ?_, ?_⟩
    · simp [Deed.portFor, he, ha]
    · intro a' hne
      rw [ha] at hne
      exact ⟨rfl, by simp [Deed.portFor, Ne.symm hne]⟩
  | _ => cases hstores

/-- Attempts in the registry are given out and handed out; a call does not lose or double any. -/
theorem attempts_next (call : Call) :
    (r.next call).entries.map Entry.attempt + ((Deed.mk r call).handedOut.map Entry.attempt : List Attempt) =
      r.entries.map Entry.attempt + ((Deed.mk r call).issued.map Prod.snd : List Attempt) := by
  by_cases hstores : call.stores
  · have hattempts : (r.next call).entries.map Entry.attempt = r.entries.map Entry.attempt := by
      rcases w.stores_next hstores with ⟨h, _⟩ | ⟨e, e', rest, hold, hnew, ha, _⟩
      · rw [h]
      · rw [hold, hnew, Multiset.map_cons, Multiset.map_cons, ha]
    have hout : (Deed.mk r call).handedOut = [] :=
      Deed.handedOut_eq_nil (by cases call <;> first | exact Bool.false_ne_true | cases hstores)
    have hissued : (Deed.mk r call).issued = [] := by
      cases call <;> first | rfl | cases hstores
    rw [hattempts, hout, hissued]
    rfl
  · have h := congrArg (Multiset.map Prod.fst) (w.cargo_next hstores)
    simpa [Multiset.map_add, Multiset.map_map, Entry.cargo, Function.comp_def] using h

theorem handedOut_next {call : Call} {e : Entry} (h : e ∈ (Deed.mk r call).handedOut) :
    e ∈ r.entries ∧ (e.phase = .pending → ∃ s, call = .remove s e.attempt) := by
  have ho := r.perform_outcome call
  unfold Deed.handedOut Deed.answer at h
  revert ho h
  generalize r.answer call = ans
  generalize r.next call = r'
  intro h ho
  cases ho with
  | tornDown he hp =>
    obtain rfl := List.mem_singleton.mp h
    refine ⟨mem_entries_of_current he, fun hpend => ?_⟩
    rw [hp] at hpend
    cases hpend
  | removedCurrent he =>
    obtain rfl := List.mem_singleton.mp h
    exact ⟨mem_entries_of_current he, fun _ => ⟨_, rfl⟩⟩
  | removedSuperseded _ he =>
    obtain rfl := List.mem_singleton.mp h
    exact ⟨mem_entries_of_superseded he, fun _ => ⟨_, by rw [w.superseded_key _ _ he]⟩⟩
  | @endpointSet s a endpoint e' he => cases hs : e'.stopped <;> simp [hs, Answer.ofUnit] at h
  | @portSet s a port e' he => cases hs : e'.stopped <;> simp [hs, Answer.ofUnit] at h
  | _ => cases h

/-- The current attempt of a session was given out to it. -/
theorem current_next {call : Call} {s : SessionId} {e' : Entry} (h : entry? (r.next call) s = some e') :
    (s, e'.attempt) ∈ (Deed.mk r call).issued ∨ ∃ e, r.entry? s = some e ∧ e.attempt = e'.attempt := by
  by_cases hle : e'.attempt.number ≤ r.lastAttempt
  · obtain ⟨e, he, hev⟩ := (w.next_changes call).current_origin w h hle
    exact Or.inr ⟨e, he, hev.attempt.symm⟩
  · -- a number above the last attempt is that of the entry just added
    left
    have hlast := (w.next call).attempt_le e' (mem_entries_of_current h)
    have ho := r.perform_outcome call
    unfold Deed.issued Deed.answer
    revert ho h hlast
    generalize r.answer call = ans
    generalize r.next call = r'
    intro h hlast ho
    cases ho with
    | @entered s' role he =>
      rw [entry?_addAttempt he] at h
      split at h
      · rename_i hs
        cases h
        exact List.mem_singleton.mpr (by rw [hs]; rfl)
      · exact absurd (w.attempt_le e' (mem_entries_of_current h)) hle
    | @enteredAnew s' role e he hst =>
      have hnone := w.entry?_supersede_self he
      rw [entry?_addAttempt hnone, w.entry?_supersede he] at h
      split at h
      · rename_i hs
        cases h
        exact List.mem_singleton.mpr (by rw [hs, newEntry, supersede_lastAttempt])
      · exact absurd (w.attempt_le e' (mem_entries_of_current h)) hle
    | _ => exact absurd (by simpa using hlast) hle

theorem attempt_ne_of_rest {e x : Entry} {rest : Multiset Entry} (h : r.entries = e ::ₘ rest)
    (hx : x ∈ rest) : x.attempt ≠ e.attempt := by
  have hn := w.attempts_nodup
  rw [h, Multiset.map_cons, Multiset.nodup_cons] at hn
  exact fun ha => hn.1 (ha ▸ Multiset.mem_map_of_mem _ hx)

/-- An entry after a call is new and empty, or it is an old one with what the call stores for it. -/
theorem carried_next {call : Call} {e' : Entry} (h : e' ∈ (r.next call).entries) :
    (e'.attempt.number = r.lastAttempt + 1 ∧ e'.endpoint = none ∧ e'.port = none) ∨
    ∃ e ∈ r.entries, e'.attempt = e.attempt ∧
      e'.endpoint = ((Deed.mk r call).endpointFor e.attempt).or e.endpoint ∧
      e'.port = ((Deed.mk r call).portFor e.attempt).or e.port := by
  by_cases hstores : call.stores
  · right
    rcases w.stores_next hstores with ⟨hr, hno⟩ | ⟨e, x, rest, hold, hnew, ha, hep, hport, hno⟩
    · obtain ⟨hep, hport⟩ := hno e'.attempt
      rw [hr] at h
      exact ⟨e', h, rfl, by rw [hep]; rfl, by rw [hport]; rfl⟩
    · rw [hnew] at h
      rcases Multiset.mem_cons.mp h with rfl | h
      · exact ⟨e, hold ▸ Multiset.mem_cons_self e rest, ha, hep, hport⟩
      · obtain ⟨hep, hport⟩ := hno e'.attempt (w.attempt_ne_of_rest hold h)
        exact ⟨e', hold ▸ Multiset.mem_cons_of_mem h, rfl, by rw [hep]; rfl, by rw [hport]; rfl⟩
  · have hmem : e'.cargo ∈ r.entries.map Entry.cargo +
        ((Deed.mk r call).issued.map fun x => (x.2, none, none) : List Cargo) := by
      rw [← w.cargo_next hstores]
      exact Multiset.mem_add.mpr (Or.inl (Multiset.mem_map_of_mem _ h))
    rcases Multiset.mem_add.mp hmem with hm | hm
    · right
      obtain ⟨e, he, hcargo⟩ := Multiset.mem_map.mp hm
      obtain ⟨ha, hep, hport⟩ := Entry.cargo_eq_iff.mp hcargo
      have hno : ∀ a, (Deed.mk r call).endpointFor a = none ∧ (Deed.mk r call).portFor a = none := by
        intro a
        cases call <;> first | exact ⟨rfl, rfl⟩ | exact absurd rfl hstores
      obtain ⟨hno₁, hno₂⟩ := hno e.attempt
      exact ⟨e, he, ha.symm, by rw [hno₁]; exact hep.symm, by rw [hno₂]; exact hport.symm⟩
    · left
      obtain ⟨⟨s, a⟩, hx, hcargo⟩ := List.mem_map.mp (Multiset.mem_coe.mp hm)
      obtain ⟨rfl, hep, hport⟩ := Entry.cargo_eq_iff (e := ⟨a, .presenter, .pending, false, none, none, false⟩)
        |>.mp hcargo
      exact ⟨(issued_next hx).1, hep.symm, hport.symm⟩

/-- A call stores nothing for an attempt that is still to come. -/
theorem unstored_next (call : Call) {a : Attempt} (ha : r.lastAttempt < a.number) :
    (Deed.mk r call).endpointFor a = none ∧ (Deed.mk r call).portFor a = none := by
  have hnone : ∀ s, r.attempt? s a = none := by
    intro s
    rw [Option.eq_none_iff_forall_ne_some]
    intro e he
    obtain ⟨hm, rfl⟩ := w.mem_of_attempt? he
    exact absurd (w.attempt_le e hm) (Nat.not_le.mpr ha)
  constructor
  · unfold Deed.endpointFor
    split
    · rw [if_neg]
      rintro ⟨rfl, hs⟩
      simp [hnone] at hs
    · rfl
  · unfold Deed.portFor
    split
    · rw [if_neg]
      rintro ⟨rfl, hs⟩
      simp [hnone] at hs
    · rfl

end WellFormed

/-- The log of all calls accounts for every attempt in the registry. -/
structure Accounted (log : List Deed) (r : Registry) : Prop where
  wellFormed : r.WellFormed
  balance : r.entries.map Entry.attempt + ((handedOut log).map Entry.attempt : List Attempt) =
    ((issued log).map Prod.snd : List Attempt)
  issued_nodup : ((issued log).map Prod.snd).Nodup
  issued_le : ∀ s a, (s, a) ∈ issued log → a.number ≤ r.lastAttempt
  current_issued : ∀ s e, r.entry? s = some e → (s, e.attempt) ∈ issued log
  carried : ∀ e ∈ r.entries,
    e.endpoint = lastEndpoint log e.attempt ∧ e.port = lastPort log e.attempt
  /-- Nothing was ever stored for an attempt that is still to come. -/
  unstored : ∀ a : Attempt, r.lastAttempt < a.number →
    lastEndpoint log a = none ∧ lastPort log a = none

theorem accounted_empty : Accounted [] {} where
  wellFormed := wellFormed_empty
  balance := rfl
  issued_nodup := List.nodup_nil
  issued_le _ _ h := by cases h
  current_issued _ _ h := by cases h
  carried e h := by cases Multiset.notMem_zero e h
  unstored _ _ := ⟨rfl, rfl⟩

namespace Accounted
variable {log : List Deed} {r : Registry} (h : Accounted log r)
include h

theorem issued_nodup_next (call : Call) :
    ((issued (log ++ [⟨r, call⟩])).map Prod.snd).Nodup := by
  rw [issued_append, List.map_append]
  refine List.nodup_append.mpr ⟨h.issued_nodup, ?_, ?_⟩
  · unfold Deed.issued
    split <;> simp
  · intro a ha a' ha' heq
    obtain ⟨⟨s, _⟩, hs, rfl⟩ := List.mem_map.mp ha
    obtain ⟨⟨s', _⟩, hs', rfl⟩ := List.mem_map.mp ha'
    have hle := h.issued_le _ _ hs
    have hnew := (issued_next hs').1
    simp only at heq hle
    rw [heq] at hle
    omega

theorem carried_next {call : Call} {e' : Entry} (he : e' ∈ (r.next call).entries) :
    e'.endpoint = lastEndpoint (log ++ [⟨r, call⟩]) e'.attempt ∧
      e'.port = lastPort (log ++ [⟨r, call⟩]) e'.attempt := by
  have w := h.wellFormed
  rw [lastEndpoint_append, lastPort_append]
  rcases w.carried_next he with ⟨hnew, hep, hport⟩ | ⟨e, hm, ha, hep, hport⟩
  · obtain ⟨hno, hno'⟩ := h.unstored e'.attempt (by omega)
    have hd := w.unstored_next call (a := e'.attempt) (by omega)
    rw [hep, hport, hno, hno', hd.1, hd.2]
    exact ⟨rfl, rfl⟩
  · obtain ⟨hcarried, hcarried'⟩ := h.carried e hm
    rw [hep, hport, ha, hcarried, hcarried']
    exact ⟨rfl, rfl⟩

theorem next (call : Call) : Accounted (log ++ [⟨r, call⟩]) (r.next call) where
  wellFormed := h.wellFormed.next call
  balance := by
    have hnext := h.wellFormed.attempts_next call
    rw [issued_append, handedOut_append, List.map_append, List.map_append, ← Multiset.coe_add,
      ← Multiset.coe_add, ← h.balance, add_left_comm, hnext, add_left_comm, add_assoc]
  issued_nodup := h.issued_nodup_next call
  issued_le s a hm := by
    have hlast := (h.wellFormed.next_changes call).lastAttempt_le
    rw [issued_append] at hm
    rcases List.mem_append.mp hm with hm | hm
    · exact Nat.le_trans (h.issued_le s a hm) hlast
    · obtain ⟨ha, hnext⟩ := issued_next hm
      omega
  current_issued s e he := by
    rw [issued_append]
    rcases h.wellFormed.current_next he with hm | ⟨x, hx, ha⟩
    · exact List.mem_append_right _ hm
    · exact List.mem_append_left _ (ha ▸ h.current_issued s x hx)
  carried e he := h.carried_next he
  unstored a ha := by
    have hlast := (h.wellFormed.next_changes call).lastAttempt_le
    obtain ⟨hep, hport⟩ := h.unstored a (by omega)
    obtain ⟨hep', hport'⟩ := h.wellFormed.unstored_next call (a := a) (by omega)
    rw [lastEndpoint_append, lastPort_append, hep, hport, hep', hport']
    exact ⟨rfl, rfl⟩

end Accounted

theorem accounted (calls : List Call) : Accounted (log {} calls) (({} : Registry).after calls) := by
  induction calls using List.reverseRecOn with
  | nil => exact accounted_empty
  | append_singleton calls call ih =>
    rw [log_append, after_append]
    exact ih.next call

/-- Where an attempt can be. -/
inductive Place where
  | current
  | superseded
  | handedOut

/-- An attempt that was given out to a session is at a place. -/
def Stands (log : List Deed) (r : Registry) (s : SessionId) (a : Attempt) : Place → Prop
  | .current => ∃ role e, (r.table role).get? s = some e ∧ e.attempt = a
  | .superseded => ∃ e, r.superseded.get? a = some e ∧ e.attempt = a
  | .handedOut => ∃ e ∈ handedOut log, e.attempt = a

namespace Accounted
variable {log : List Deed} {r : Registry} (h : Accounted log r)
include h

theorem session_eq {s s' : SessionId} {a : Attempt} (hs : (s, a) ∈ issued log)
    (hs' : (s', a) ∈ issued log) : s = s' :=
  congrArg Prod.fst (List.inj_on_of_nodup_map h.issued_nodup hs hs' rfl)

theorem count_eq_one {s : SessionId} {a : Attempt} (hs : (s, a) ∈ issued log) :
    (r.entries.map Entry.attempt).count a + ((handedOut log).map Entry.attempt).count a = 1 := by
  have hcount := congrArg (Multiset.count a) h.balance
  rw [Multiset.count_add, Multiset.coe_count, Multiset.coe_count] at hcount
  rw [hcount]
  exact List.count_eq_one_of_mem h.issued_nodup (List.mem_map.mpr ⟨_, hs, rfl⟩)

theorem places_nodup :
    (r.entries.map Entry.attempt + ((handedOut log).map Entry.attempt : List Attempt)).Nodup := by
  rw [h.balance]
  exact Multiset.coe_nodup.mpr h.issued_nodup

theorem handedOut_nodup : ((handedOut log).map Entry.attempt).Nodup :=
  Multiset.coe_nodup.mp (Multiset.nodup_of_le (Multiset.le_add_left _ _) h.places_nodup)

theorem not_stored_of_handedOut {e e' : Entry} (he : e ∈ r.entries) (he' : e' ∈ handedOut log) :
    e.attempt ≠ e'.attempt := by
  intro heq
  refine Multiset.disjoint_left.mp (Multiset.nodup_add.mp h.places_nodup).2.2
    (Multiset.mem_map_of_mem _ he) ?_
  rw [heq]
  exact List.mem_map_of_mem he'

/-- An attempt in the registry is the current one of its session, or superseded. -/
theorem stands_of_mem {s : SessionId} {a : Attempt} (hs : (s, a) ∈ issued log)
    (hm : a ∈ r.entries.map Entry.attempt) :
    Stands log r s a .current ∨ Stands log r s a .superseded := by
  obtain ⟨e, he, rfl⟩ := Multiset.mem_map.mp hm
  rcases h.wellFormed.mem_entries_cases he with ⟨role, s', ht⟩ | ht
  · left
    have hs' := h.current_issued s' e (h.wellFormed.entry?_of_table ht)
    rw [h.session_eq hs hs']
    exact ⟨role, e, ht, rfl⟩
  · exact Or.inr ⟨e, ht, rfl⟩

omit h in
theorem mem_of_stands {s : SessionId} {a : Attempt} {p : Place} (hp : Stands log r s a p)
    (hne : p ≠ .handedOut) : a ∈ r.entries.map Entry.attempt := by
  cases p with
  | current =>
    obtain ⟨role, e, ht, rfl⟩ := hp
    exact Multiset.mem_map_of_mem _ (mem_entries_of_table ht)
  | superseded =>
    obtain ⟨e, ht, rfl⟩ := hp
    exact Multiset.mem_map_of_mem _ (mem_entries_of_superseded ht)
  | handedOut => exact absurd rfl hne

theorem not_current_and_superseded {s : SessionId} {a : Attempt} (hc : Stands log r s a .current)
    (hs : Stands log r s a .superseded) : False := by
  obtain ⟨role, e, ht, rfl⟩ := hc
  obtain ⟨e', ht', _⟩ := hs
  rw [h.wellFormed.superseded_of_current (h.wellFormed.entry?_of_table ht)] at ht'
  cases ht'

theorem one_place {s : SessionId} {a : Attempt} (hs : (s, a) ∈ issued log) :
    ∃! p, Stands log r s a p := by
  have hcount := h.count_eq_one hs
  by_cases hout : a ∈ (handedOut log).map Entry.attempt
  · have hno : a ∉ r.entries.map Entry.attempt := by
      have hpos := List.count_pos_iff.mpr hout
      exact Multiset.count_eq_zero.mp (by omega)
    obtain ⟨e, he, hea⟩ := List.mem_map.mp hout
    refine ⟨.handedOut, ⟨e, he, hea⟩, ?_⟩
    intro p hp
    by_contra hne
    exact hno (mem_of_stands hp hne)
  · have hno : ∀ p, Stands log r s a p → p ≠ .handedOut := by
      rintro p hp rfl
      obtain ⟨e, he, hea⟩ := hp
      exact hout (List.mem_map.mpr ⟨e, he, hea⟩)
    have hm : a ∈ r.entries.map Entry.attempt := by
      rw [List.count_eq_zero.mpr hout] at hcount
      exact Multiset.count_pos.mp (by omega)
    rcases h.stands_of_mem hs hm with hc | hsup
    · refine ⟨.current, hc, ?_⟩
      rintro (_ | _ | _) hp
      · rfl
      · exact (h.not_current_and_superseded hc hp).elim
      · exact absurd rfl (hno _ hp)
    · refine ⟨.superseded, hsup, ?_⟩
      rintro (_ | _ | _) hp
      · exact (h.not_current_and_superseded hp hsup).elim
      · rfl
      · exact absurd rfl (hno _ hp)

end Accounted

/--
Whatever calls are made, an attempt that was given out is at one place only, and it is handed out at
most once. An entry whose negotiation is under way is handed out only to a removal of its attempt, and
every entry carries the objects that were stored last for its attempt.
-/
theorem attempt_in_one_place (calls : List Call) :
    (∀ s a, (s, a) ∈ issued (log {} calls) →
      (∃! p, Stands (log {} calls) (({} : Registry).after calls) s a p) ∧
      ((({} : Registry).after calls).entries.map Entry.attempt).count a +
        ((handedOut (log {} calls)).map Entry.attempt).count a = 1) ∧
    ((handedOut (log {} calls)).map Entry.attempt).Nodup ∧
    ∀ earlier d later, log {} calls = earlier ++ d :: later → ∀ e ∈ d.handedOut,
      (e.phase = .pending → ∃ s, d.call = .remove s e.attempt) ∧
      e.endpoint = lastEndpoint earlier e.attempt ∧ e.port = lastPort earlier e.attempt := by
  have h := accounted calls
  refine ⟨fun s a hs => ⟨h.one_place hs, h.count_eq_one hs⟩, h.handedOut_nodup, ?_⟩
  intro earlier d later hsplit e he
  obtain ⟨made, rfl, hbefore⟩ := log_split hsplit
  obtain ⟨before, call⟩ := d
  subst hbefore
  obtain ⟨hm, hpending⟩ := (accounted made).wellFormed.handedOut_next he
  exact ⟨hpending, (accounted made).carried e hm⟩

end Registry

end Rostrum
