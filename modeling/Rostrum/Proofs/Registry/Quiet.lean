import Rostrum.Proofs.Registry.Apart
import Rostrum.Proofs.Registry.Frame

/-!
# Stopping what is stopped

A stop takes one of three ways: the session is unknown, its negotiation is under way, or it takes part. After
each of them the session is quiet, and the next stop finds nothing to do. A session stays quiet until it is
entered anew or a candidate of its client comes to wait.
-/

namespace Rostrum.Registry

/-- No entry of the session goes on, and no candidate of it waits. -/
structure Quiet (r : Registry) (s : SessionId) : Prop where
  stopped : ∀ e, r.entry? s = some e → e.stopped
  queue : r.buffer.queues.get? s = none

/-- Whether a call brings in something of a session: an entry that goes on, or a candidate that waits. -/
def Call.brings (s : SessionId) : Call → Bool
  | .register s' _ => s' = s
  | .submit s' _ => s' = s
  | _ => false

variable {r : Registry} {s : SessionId}

theorem modifyEntry_eq_self {e : Entry} (he : r.entry? s = some e) {f : Entry → Entry} (hf : f e = e) :
    r.modifyEntry s f = r := by
  have hsame : ∀ {t : Table SessionId Entry}, t.get? s = some e → t.modify s f = t := by
    intro t ht
    rw [Table.modify_of_get? ht, hf, Table.put_of_get? ht]
  unfold modifyEntry
  cases hp : r.presenters.get? s with
  | some x =>
    obtain rfl : x = e := by simpa [hp, entry?] using he
    rw [if_pos (by simp [Table.contains, hp]), hsame hp]
  | none =>
    have hv : r.viewers.get? s = some e := by simpa [hp, entry?] using he
    rw [if_neg (by simp [Table.contains, hp]), hsame hv]

namespace Quiet
variable (h : r.Quiet s)
include h

theorem hasQueue : r.buffer.hasQueue s = false := by
  simp [CandidateBuffer.hasQueue, Table.contains, h.queue]

theorem activeRole? : r.activeRole? s = none := by
  unfold Registry.activeRole?
  cases he : r.entry? s with
  | none => rfl
  | some e => simp [Option.filter_some, h.stopped e he]

/-- A stop changes nothing. -/
theorem stop (w : r.WellFormed) : (r.stop s).2 = r ∧ ∀ e, (r.stop s).1 ≠ .teardown e := by
  have hclear : r.clearBuffer s = r := by
    have hqueues := Table.erase_of_get?_eq_none h.queue
    unfold clearBuffer CandidateBuffer.clear
    rw [hqueues]
  rcases r.stop_cases s with ⟨_, hr⟩ | ⟨e, he, _, hr⟩ | ⟨e, he, hready, _⟩
  · rw [hr]
    exact ⟨hclear, nofun⟩
  · have hmark : { e with stopped := true } = e := by rw [← h.stopped e he]
    have hmarked := modifyEntry_eq_self he (f := fun e => { e with stopped := true }) hmark
    rw [hr, ← modifyEntry_eq_modifyAttempt he, hmarked]
    exact ⟨hclear, nofun⟩
  · have hpending := w.stopped_pending e (mem_entries_of_current he) (h.stopped e he)
    cases hpending.symm.trans hready

theorem after (w : r.WellFormed) {calls : List Call} (hno : ∀ call ∈ calls, call.brings s = false) :
    (r.after calls).Quiet s := by
  have hregister : ∀ role, Call.register s role ∉ calls := by
    intro role hmem
    simpa [Call.brings] using hno _ hmem
  have hsubmit : ∀ c, Call.submit s c ∉ calls := by
    intro c hmem
    simpa [Call.brings] using hno _ hmem
  constructor
  · intro e he
    obtain ⟨x, hx, hev⟩ := w.current_unless_entered hregister he
    exact hev.stopped (h.stopped x hx)
  · exact queue_none_after h.queue hsubmit

end Quiet

theorem WellFormed.quiet_of_stop (w : r.WellFormed) (s : SessionId) : (r.next (.stop s)).Quiet s := by
  constructor
  · intro e he
    exact w.stopped_of_stop he
  · rw [next_stop]
    rcases r.stop_cases s with ⟨_, hr⟩ | ⟨_, _, _, hr⟩ | ⟨_, _, _, hr⟩ <;> rw [hr] <;>
      exact Table.get?_erase_self _ _

/-- A session that nothing was brought in of since it was stopped. -/
theorem quiet_since_stop (calls later : List Call) (hno : ∀ call ∈ later, call.brings s = false) :
    (({} : Registry).after (calls ++ .stop s :: later)).Quiet s := by
  have w := wellFormed_empty.after calls
  have happend : ({} : Registry).after (calls ++ .stop s :: later) =
      ((({} : Registry).after calls).next (.stop s)).after later := List.foldl_append
  rw [happend]
  exact (w.quiet_of_stop s).after (w.next (.stop s)) hno

end Rostrum.Registry
