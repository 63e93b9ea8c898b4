import Rostrum.Proofs.Registry.Calls

/-!
# The shape of the registry

Every registry reached from the empty one is well-formed, and an entry only ever moves forward: its
role stays, and neither a stop nor a ready endpoint nor a finished negotiation is taken back. Attempt
numbers are never given out again, so an entry found later under the same number is the same attempt.
-/

namespace Rostrum.Registry

theorem Change.lastAttempt_le {r r' : Registry} (h : Change r r') : r.lastAttempt ≤ r'.lastAttempt := by
  cases h with
  | rebuffer => exact Nat.le_refl _
  | add s role _ =>
    rw [addAttempt_lastAttempt]
    omega
  | supersede s e _ _ => exact Nat.le_of_eq (supersede_lastAttempt r s e).symm
  | modify s a e f _ _ _ => exact Nat.le_of_eq (modifyAttempt_lastAttempt r s a f).symm
  | take s a e _ => exact Nat.le_of_eq (takeOut_lastAttempt r s a).symm

/-- An entry after a change was there before, unless its attempt is new. -/
theorem Change.origin {r r' : Registry} (h : Change r r') (w : r.WellFormed) {e' : Entry}
    (hm : e' ∈ r'.entries) (hle : e'.attempt.number ≤ r.lastAttempt) :
    ∃ e ∈ r.entries, Evolves e e' := by
  cases h with
  | rebuffer b => exact ⟨e', hm, .refl e'⟩
  | add s role hs =>
    rw [w.entries_addAttempt hs role] at hm
    rcases Multiset.mem_cons.mp hm with rfl | hm
    · exact absurd hle (Nat.not_succ_le_self _)
    · exact ⟨e', hm, .refl e'⟩
  | supersede s e he hst =>
    rw [w.entries_supersede he] at hm
    exact ⟨e', hm, .refl e'⟩
  | modify s a e f he hev hsp =>
    obtain ⟨rest, hold, hnew⟩ := w.entries_modifyAttempt he f
    rw [hnew] at hm
    rw [hold]
    rcases Multiset.mem_cons.mp hm with rfl | hm
    · exact ⟨e, Multiset.mem_cons_self e rest, hev⟩
    · exact ⟨e', Multiset.mem_cons_of_mem hm, .refl e'⟩
  | take s a e he =>
    rw [w.entries_takeOut he]
    exact ⟨e', Multiset.mem_cons_of_mem hm, .refl e'⟩

/-- The current entry of a session after a change was its current entry before, unless it is new. -/
theorem Change.current_origin {r r' : Registry} (h : Change r r') (w : r.WellFormed) {s : SessionId}
    {e' : Entry} (he' : r'.entry? s = some e') (hle : e'.attempt.number ≤ r.lastAttempt) :
    ∃ e, r.entry? s = some e ∧ Evolves e e' := by
  cases h with
  | rebuffer b => exact ⟨e', he', .refl e'⟩
  | add s' role hs =>
    rw [entry?_addAttempt hs] at he'
    split at he'
    · cases he'
      exact absurd hle (Nat.not_succ_le_self _)
    · exact ⟨e', he', .refl e'⟩
  | supersede s' e he hst =>
    rw [w.entry?_supersede he] at he'
    split at he'
    · cases he'
    · exact ⟨e', he', .refl e'⟩
  | modify s' a e f he hev hsp =>
    rw [w.entry?_modifyAttempt he] at he'
    obtain ⟨x, hx, rfl⟩ := Option.map_eq_some_iff.mp he'
    refine ⟨x, hx, ?_⟩
    split
    · rename_i hxa
      rwa [w.eq_of_attempt? he (mem_entries_of_current hx) hxa]
    · exact .refl x
  | take s' a e he =>
    rw [w.entry?_takeOut he] at he'
    exact ⟨e', (Option.filter_eq_some_iff.mp he').1, .refl e'⟩

theorem Changes.lastAttempt_le {r r' : Registry} (h : Changes r r') :
    r.lastAttempt ≤ r'.lastAttempt := by
  induction h with
  | refl => exact Nat.le_refl _
  | tail _ hc ih => exact Nat.le_trans ih hc.lastAttempt_le

theorem Changes.origin {r r' : Registry} (h : Changes r r') (w : r.WellFormed) {e' : Entry}
    (hm : e' ∈ r'.entries) (hle : e'.attempt.number ≤ r.lastAttempt) :
    ∃ e ∈ r.entries, Evolves e e' := by
  induction h generalizing e' with
  | refl => exact ⟨e', hm, .refl e'⟩
  | tail hs hc ih =>
    obtain ⟨e₁, hm₁, hev₁⟩ :=
      hc.origin (Changes.wellFormed hs w) hm (Nat.le_trans hle (Changes.lastAttempt_le hs))
    obtain ⟨e₂, hm₂, hev₂⟩ := ih hm₁ (hev₁.attempt ▸ hle)
    exact ⟨e₂, hm₂, hev₂.trans hev₁⟩

theorem Changes.current_origin {r r' : Registry} (h : Changes r r') (w : r.WellFormed) {s : SessionId}
    {e' : Entry} (he' : r'.entry? s = some e') (hle : e'.attempt.number ≤ r.lastAttempt) :
    ∃ e, r.entry? s = some e ∧ Evolves e e' := by
  induction h generalizing e' with
  | refl => exact ⟨e', he', .refl e'⟩
  | tail hs hc ih =>
    obtain ⟨e₁, he₁, hev₁⟩ :=
      hc.current_origin (Changes.wellFormed hs w) he' (Nat.le_trans hle (Changes.lastAttempt_le hs))
    obtain ⟨e₂, he₂, hev₂⟩ := ih he₁ (hev₁.attempt ▸ hle)
    exact ⟨e₂, he₂, hev₂.trans hev₁⟩

theorem WellFormed.evolves_after {r : Registry} (w : r.WellFormed) (calls : List Call) {e e' : Entry}
    (hm : e ∈ r.entries) (hm' : e' ∈ (r.after calls).entries) (ha : e'.attempt = e.attempt) :
    Evolves e e' := by
  have hle : e'.attempt.number ≤ r.lastAttempt := ha ▸ w.attempt_le e hm
  obtain ⟨e₁, hm₁, hev⟩ := (w.after_changes calls).origin w hm' hle
  rwa [w.eq_of_attempt_eq hm hm₁ (ha.symm.trans hev.attempt)]

theorem WellFormed.ready_not_stopped {r : Registry} (w : r.WellFormed) {e : Entry} (hm : e ∈ r.entries)
    (hp : e.phase = .ready) : ¬ e.stopped ∧ ∀ a, r.superseded.get? a ≠ some e := by
  have hs : ¬ e.stopped := by
    intro hs
    rw [w.stopped_pending e hm hs] at hp
    cases hp
  exact ⟨hs, fun a ha => hs (w.superseded_stopped a e ha)⟩

/-- Whatever calls are made, the registry keeps its shape, and an attempt only moves forward. -/
theorem shape_of_calls (calls more : List Call) :
    (({} : Registry).after calls).WellFormed ∧
    (∀ e ∈ (({} : Registry).after calls).entries, e.phase = .ready →
      ¬ e.stopped ∧ ∀ a, (({} : Registry).after calls).superseded.get? a ≠ some e) ∧
    ∀ e ∈ (({} : Registry).after calls).entries,
      ∀ e' ∈ (({} : Registry).after (calls ++ more)).entries,
        e'.attempt = e.attempt → Evolves e e' := by
  have w := wellFormed_empty.after calls
  refine ⟨w, fun e hm hp => w.ready_not_stopped hm hp, ?_⟩
  intro e hm e' hm' ha
  have happend : ({} : Registry).after (calls ++ more) = (({} : Registry).after calls).after more :=
    List.foldl_append
  rw [happend] at hm'
  exact w.evolves_after more hm hm' ha

end Rostrum.Registry
