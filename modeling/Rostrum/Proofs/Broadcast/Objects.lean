import Mathlib.Data.Multiset.Bind
import Rostrum.Broadcast.Task
import Rostrum.Proofs.Registry.Frame

/-!
# The objects in the registry

A sequence of calls that stores nothing neither makes nor loses an object: what the registry held
before is what it holds afterwards together with what it handed out.
-/

namespace Rostrum

/-- What an entry holds of a kind. -/
def Entry.Holds (e : Entry) : ObjectKind → ObjectId → Prop
  | .endpoint, id => e.endpoint = some ⟨id⟩
  | .port, id => e.port = some ⟨id⟩
  | _, _ => False

theorem Entry.mem_objects_iff {e : Entry} {o : ObjectId} :
    o ∈ e.objects ↔ e.port = some ⟨o⟩ ∨ e.endpoint = some ⟨o⟩ := by
  obtain ⟨_, _, _, _, endpoint, port, _⟩ := e
  rcases port with _ | ⟨⟨p⟩⟩ <;> rcases endpoint with _ | ⟨⟨q⟩⟩ <;>
    simp [objects, eq_comm]

namespace Registry

/-- All objects that entries name. -/
def objects (r : Registry) : Multiset ObjectId := r.entries.bind fun e => (e.objects : Multiset ObjectId)

/-- The objects that are carried. -/
def cargoObjects (c : Cargo) : List ObjectId :=
  (c.2.2.map Handle.id).toList ++ (c.2.1.map Handle.id).toList

theorem objects_eq (r : Registry) :
    r.objects = (r.entries.map Entry.cargo).bind fun c => (cargoObjects c : Multiset ObjectId) := by
  rw [Multiset.bind_map]
  rfl

theorem mem_objects {r : Registry} {e : Entry} {o : ObjectId} (he : e ∈ r.entries)
    (ho : o ∈ e.objects) : o ∈ r.objects :=
  Multiset.mem_bind.mpr ⟨e, he, Multiset.mem_coe.mpr ho⟩

theorem mem_objects_iff {r : Registry} {o : ObjectId} :
    o ∈ r.objects ↔ ∃ e ∈ r.entries, o ∈ e.objects :=
  Multiset.mem_bind

namespace WellFormed
variable {r : Registry} (w : r.WellFormed)
include w

theorem cargo_after {calls : List Call} (hstores : ∀ call ∈ calls, ¬ call.stores) :
    (r.after calls).entries.map Entry.cargo +
        ((handedOut (r.log calls)).map Entry.cargo : List Cargo) =
      r.entries.map Entry.cargo +
        ((issued (r.log calls)).map fun x => (x.2, none, none) : List Cargo) := by
  induction calls generalizing r with
  | nil => rfl
  | cons call rest ih =>
    obtain ⟨hcall, hrest⟩ := List.forall_mem_cons.mp hstores
    have hnext := w.cargo_next hcall
    have hafter := ih (w.next call) hrest
    have hout : handedOut (r.log (call :: rest)) =
        (Deed.mk r call).handedOut ++ handedOut ((r.next call).log rest) := rfl
    have hin : issued (r.log (call :: rest)) =
        (Deed.mk r call).issued ++ issued ((r.next call).log rest) := rfl
    rw [hout, hin, List.map_append, List.map_append, ← Multiset.coe_add, ← Multiset.coe_add,
      after_cons, add_left_comm, hafter, add_left_comm, ← add_assoc, hnext, add_assoc]

/-- Objects are neither made nor lost by calls that store nothing. -/
theorem objects_after {calls : List Call} (hstores : ∀ call ∈ calls, ¬ call.stores) :
    (r.after calls).objects + ((handedOut (r.log calls)).flatMap Entry.objects : List ObjectId) =
      r.objects := by
  have h := congrArg (fun m : Multiset Cargo => m.bind fun c => (cargoObjects c : Multiset ObjectId))
    (w.cargo_after hstores)
  simp only [Multiset.add_bind, Multiset.coe_bind, ← objects_eq] at h
  have hout : ((handedOut (r.log calls)).map Entry.cargo).flatMap cargoObjects =
      (handedOut (r.log calls)).flatMap Entry.objects := List.flatMap_map _ _ _
  have hin : ((issued (r.log calls)).map fun x => (x.2, none, none)).flatMap cargoObjects = [] := by
    rw [List.flatMap_map]
    simp [cargoObjects]
  rw [hout, hin] at h
  exact h.trans (add_zero _)

/-- An entry after such calls, or one handed out by them, carries what it carried, or is new and empty. -/
theorem cargo_origin {calls : List Call} (hstores : ∀ call ∈ calls, ¬ call.stores) {e' : Entry}
    (he' : e' ∈ (r.after calls).entries ∨ e' ∈ handedOut (r.log calls)) :
    (∃ e ∈ r.entries, e.cargo = e'.cargo) ∨
      ∃ s, (s, e'.attempt) ∈ issued (r.log calls) ∧ e'.endpoint = none ∧ e'.port = none := by
  have hmem : e'.cargo ∈ r.entries.map Entry.cargo +
      ((issued (r.log calls)).map fun x => (x.2, none, none) : List Cargo) := by
    rw [← w.cargo_after hstores]
    rcases he' with he' | he'
    · exact Multiset.mem_add.mpr (Or.inl (Multiset.mem_map_of_mem _ he'))
    · exact Multiset.mem_add.mpr (Or.inr (List.mem_map.mpr ⟨e', he', rfl⟩))
  rcases Multiset.mem_add.mp hmem with hm | hm
  · exact Or.inl (Multiset.mem_map.mp hm)
  · obtain ⟨⟨s, a⟩, hx, hcargo⟩ := List.mem_map.mp (Multiset.mem_coe.mp hm)
    simp only [Entry.cargo, Prod.mk.injEq] at hcargo
    obtain ⟨rfl, hep, hport⟩ := hcargo
    exact Or.inr ⟨s, hx, hep.symm, hport.symm⟩

theorem objects_next {call : Call} (hstores : ¬ call.stores) (htakes : ¬ call.takes) :
    (r.next call).objects = r.objects := by
  have hnone : ∀ x ∈ [call], ¬ x.stores := by simpa using hstores
  have h := w.objects_after hnone
  rw [handedOut_log_singleton, Deed.handedOut_eq_nil htakes] at h
  exact (add_zero _).symm.trans h

theorem issued_new {calls : List Call} {s : SessionId} {a : Attempt} (h : (s, a) ∈ issued (r.log calls)) :
    r.lastAttempt < a.number := by
  induction calls generalizing r with
  | nil => cases h
  | cons call rest ih =>
    rcases List.mem_append.mp h with h | h
    · rw [(issued_next h).1]
      exact Nat.lt_succ_self _
    · exact Nat.lt_of_le_of_lt (w.next_changes call).lastAttempt_le (ih (w.next call) h)

theorem entries_setEndpoint {s : SessionId} {a : Attempt} {e : Entry} (h : r.attempt? s a = some e)
    (endpoint : Endpoint) :
    ∃ rest, r.entries = e ::ₘ rest ∧
      (r.next (.setEndpoint s a endpoint)).entries = { e with endpoint := some endpoint } ::ₘ rest := by
  rw [next_setEndpoint]
  rcases r.note_cases s a fun e => { e with endpoint := some endpoint } with ⟨_, _, hr⟩ | ⟨hnone, _⟩
  · rw [setEndpoint, hr]
    exact w.entries_modifyAttempt h _
  · rw [hnone] at h
    cases h

theorem entries_setPort {s : SessionId} {a : Attempt} {e : Entry} (h : r.attempt? s a = some e)
    (port : MixerPort) :
    ∃ rest, r.entries = e ::ₘ rest ∧
      (r.next (.setPort s a port)).entries = { e with port := some port } ::ₘ rest := by
  rw [next_setPort]
  rcases r.note_cases s a fun e => { e with port := some port } with ⟨_, _, hr⟩ | ⟨hnone, _⟩
  · rw [setPort, hr]
    exact w.entries_modifyAttempt h _
  · rw [hnone] at h
    cases h

end WellFormed

end Registry

end Rostrum
