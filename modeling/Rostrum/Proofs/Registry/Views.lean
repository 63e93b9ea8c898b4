import Mathlib.Algebra.Order.Group.Multiset
import Rostrum.Broadcast.Registry
import Rostrum.Proofs.Table

/-!
# Views of the registry

`table` picks the table of a role, and `entries` forgets where an entry stands. In a well-formed
registry every operation is a change of one table of a role or of the superseded entries, and the
lemmas below say what it does to `entries`, to `entry?` and to `attempt?`.
-/

namespace Rostrum.Registry

/-- The table of the sessions that have a role. -/
def table (r : Registry) : Role → Table SessionId Entry
  | .presenter => r.presenters
  | .viewer => r.viewers

def withTable (r : Registry) (role : Role) (t : Table SessionId Entry) : Registry :=
  match role with
  | .presenter => { r with presenters := t }
  | .viewer => { r with viewers := t }

/-- All entries, current or superseded. -/
def entries (r : Registry) : Multiset Entry :=
  r.presenters.contents + r.viewers.contents + r.superseded.contents

/-- The shape every registry has that was reached from the empty one. -/
structure WellFormed (r : Registry) : Prop where
  tables_distinct : ∀ role, (r.table role).Distinct
  superseded_distinct : r.superseded.Distinct
  /-- A session stands in one table of a role at most. -/
  one_table : ∀ s role role', (r.table role).contains s → (r.table role').contains s → role = role'
  role_of_table : ∀ role s e, (r.table role).get? s = some e → e.role = role
  attempts_nodup : (r.entries.map Entry.attempt).Nodup
  attempt_le : ∀ e ∈ r.entries, e.attempt.number ≤ r.lastAttempt
  superseded_key : ∀ a e, r.superseded.get? a = some e → e.attempt = a
  superseded_stopped : ∀ a e, r.superseded.get? a = some e → e.stopped
  stopped_pending : ∀ e ∈ r.entries, e.stopped → e.phase = .pending

section Tables
variable (r : Registry) (role role' : Role) (t : Table SessionId Entry)

@[simp] theorem table_withTable_self : (r.withTable role t).table role = t := by
  cases role <;> rfl

theorem table_withTable_of_ne {role role' : Role} (h : role ≠ role') :
    (r.withTable role t).table role' = r.table role' := by
  cases role <;> cases role' <;> first | rfl | exact absurd rfl h

@[simp] theorem withTable_superseded : (r.withTable role t).superseded = r.superseded := by
  cases role <;> rfl

@[simp] theorem withTable_lastAttempt : (r.withTable role t).lastAttempt = r.lastAttempt := by
  cases role <;> rfl

/-- The entries outside the table of a role. -/
def entriesBeside (r : Registry) : Role → Multiset Entry
  | .presenter => r.viewers.contents + r.superseded.contents
  | .viewer => r.presenters.contents + r.superseded.contents

theorem entries_eq : r.entries = (r.table role).contents + r.entriesBeside role := by
  cases role
  · exact add_assoc _ _ _
  · exact (congrArg (· + _) (add_comm _ _)).trans (add_assoc _ _ _)

theorem entries_withTable : (r.withTable role t).entries = t.contents + r.entriesBeside role := by
  rw [entries_eq _ role, table_withTable_self]
  cases role <;> rfl

end Tables

theorem mem_entries_of_table {r : Registry} {role : Role} {s : SessionId} {e : Entry}
    (h : (r.table role).get? s = some e) : e ∈ r.entries := by
  rw [entries_eq r role]
  exact Multiset.mem_add.mpr (Or.inl (Table.mem_contents h))

theorem mem_entries_of_superseded {r : Registry} {a : Attempt} {e : Entry}
    (h : r.superseded.get? a = some e) : e ∈ r.entries :=
  Multiset.mem_add.mpr (Or.inr (Table.mem_contents h))

theorem entry?_cases {r : Registry} {s : SessionId} {e : Entry} (h : r.entry? s = some e) :
    ∃ role, (r.table role).get? s = some e := by
  rcases Option.or_eq_some_iff.mp h with hp | ⟨_, hv⟩
  · exact ⟨.presenter, hp⟩
  · exact ⟨.viewer, hv⟩

theorem mem_entries_of_current {r : Registry} {s : SessionId} {e : Entry}
    (h : r.entry? s = some e) : e ∈ r.entries := by
  obtain ⟨role, ht⟩ := entry?_cases h
  exact mem_entries_of_table ht

theorem entry?_eq_none_iff {r : Registry} {s : SessionId} :
    r.entry? s = none ↔ ∀ role, (r.table role).get? s = none := by
  constructor
  · intro h role
    obtain ⟨hp, hv⟩ := Option.or_eq_none_iff.mp h
    cases role
    · exact hp
    · exact hv
  · exact fun h => Option.or_eq_none_iff.mpr ⟨h .presenter, h .viewer⟩

theorem attempt?_attempt {r : Registry} {s : SessionId} {a : Attempt} {e : Entry}
    (hk : ∀ a e, r.superseded.get? a = some e → e.attempt = a) (h : r.attempt? s a = some e) :
    e.attempt = a := by
  unfold attempt? at h
  split at h
  · rename_i hc
    simp only [isCurrent, h, Option.any_some, decide_eq_true_eq] at hc
    exact hc
  · exact hk a e h

namespace WellFormed
variable {r : Registry} (w : r.WellFormed)
include w

theorem other_table {s : SessionId} {role role' : Role} {e : Entry}
    (h : (r.table role).get? s = some e) (hne : role ≠ role') : (r.table role').get? s = none := by
  by_contra hsome
  obtain ⟨e', he'⟩ := Option.ne_none_iff_exists'.mp hsome
  exact hne (w.one_table s role role' (by simp [Table.contains, h]) (by simp [Table.contains, he']))

theorem entry?_eq_some_iff {s : SessionId} {e : Entry} :
    r.entry? s = some e ↔ (r.table e.role).get? s = some e := by
  constructor
  · intro h
    obtain ⟨role, ht⟩ := entry?_cases h
    rwa [w.role_of_table role s e ht]
  · intro h
    unfold entry?
    cases hr : e.role with
    | presenter =>
      rw [hr] at h
      exact Option.or_eq_some_iff.mpr (Or.inl h)
    | viewer =>
      have hp := w.other_table h (by rw [hr]; decide : e.role ≠ .presenter)
      rw [hr] at h
      exact Option.or_eq_some_iff.mpr (Or.inr ⟨hp, h⟩)

theorem entry?_of_table {role : Role} {s : SessionId} {e : Entry}
    (h : (r.table role).get? s = some e) : r.entry? s = some e :=
  w.entry?_eq_some_iff.mpr (by rwa [w.role_of_table role s e h])

theorem mem_entries_cases {e : Entry} (h : e ∈ r.entries) :
    (∃ role s, (r.table role).get? s = some e) ∨ r.superseded.get? e.attempt = some e := by
  rcases Multiset.mem_add.mp h with h | h
  · left
    rcases Multiset.mem_add.mp h with h | h
    · exact ⟨.presenter, (Table.mem_contents_iff (w.tables_distinct .presenter) e).mp h⟩
    · exact ⟨.viewer, (Table.mem_contents_iff (w.tables_distinct .viewer) e).mp h⟩
  · obtain ⟨a, ha⟩ := (Table.mem_contents_iff w.superseded_distinct e).mp h
    right
    rwa [w.superseded_key a e ha]

theorem eq_of_attempt_eq {e e' : Entry} (h : e ∈ r.entries) (h' : e' ∈ r.entries)
    (ha : e.attempt = e'.attempt) : e = e' :=
  Multiset.inj_on_of_nodup_map w.attempts_nodup e h e' h' ha

/-- No attempt is both current and superseded. -/
theorem superseded_of_current {s : SessionId} {e : Entry} (h : r.entry? s = some e) :
    r.superseded.get? e.attempt = none := by
  rw [Option.eq_none_iff_forall_ne_some]
  intro e' he'
  have heq : e' = e :=
    w.eq_of_attempt_eq (mem_entries_of_superseded he') (mem_entries_of_current h) (w.superseded_key _ _ he')
  have hn := w.attempts_nodup
  rw [entries, Multiset.map_add] at hn
  have hcur : e ∈ r.presenters.contents + r.viewers.contents := by
    rcases Option.or_eq_some_iff.mp h with hp | ⟨_, hv⟩
    · exact Multiset.mem_add.mpr (Or.inl (Table.mem_contents hp))
    · exact Multiset.mem_add.mpr (Or.inr (Table.mem_contents hv))
  exact (Multiset.disjoint_left.mp (Multiset.nodup_add.mp hn).2.2) (Multiset.mem_map_of_mem _ hcur)
    (Multiset.mem_map_of_mem _ (Table.mem_contents (heq ▸ he')))

/-- Entries of two sessions are of different attempts. -/
theorem session_eq {s s' : SessionId} {e e' : Entry} (h : r.entry? s = some e)
    (h' : r.entry? s' = some e') (ha : e.attempt = e'.attempt) : s = s' := by
  have heq : e = e' := w.eq_of_attempt_eq (mem_entries_of_current h) (mem_entries_of_current h') ha
  subst heq
  by_contra hne
  have ht := w.entry?_eq_some_iff.mp h
  have ht' := w.entry?_eq_some_iff.mp h'
  have hc := Table.contents_of_get? (w.tables_distinct e.role) ht
  have hin : e ∈ ((r.table e.role).erase s).contents :=
    Table.mem_contents (by rwa [Table.get?_erase_of_ne _ hne])
  have hn := w.attempts_nodup
  rw [entries_eq r e.role, hc, Multiset.cons_add, Multiset.map_cons, Multiset.nodup_cons] at hn
  exact hn.1 (Multiset.mem_map_of_mem _ (Multiset.mem_add.mpr (Or.inl hin)))

theorem attempt?_eq_some_iff {s : SessionId} {a : Attempt} {e : Entry} :
    r.attempt? s a = some e ↔
      e.attempt = a ∧ (r.entry? s = some e ∨ r.superseded.get? a = some e) := by
  constructor
  · intro h
    refine ⟨attempt?_attempt w.superseded_key h, ?_⟩
    unfold attempt? at h
    split at h
    · exact Or.inl h
    · exact Or.inr h
  · rintro ⟨rfl, h⟩
    unfold attempt? isCurrent
    rcases h with h | h
    · simp [h]
    · cases hc : r.entry? s with
      | none => simpa using h
      | some e' =>
        have hne : e'.attempt ≠ e.attempt := by
          intro ha
          have hnone := w.superseded_of_current hc
          rw [ha, h] at hnone
          cases hnone
        simpa [hne] using h

theorem mem_of_attempt? {s : SessionId} {a : Attempt} {e : Entry} (h : r.attempt? s a = some e) :
    e ∈ r.entries ∧ e.attempt = a := by
  obtain ⟨ha, hc | hs⟩ := w.attempt?_eq_some_iff.mp h
  · exact ⟨mem_entries_of_current hc, ha⟩
  · exact ⟨mem_entries_of_superseded hs, ha⟩

theorem eq_of_attempt? {s : SessionId} {a : Attempt} {e x : Entry} (h : r.attempt? s a = some e)
    (hx : x ∈ r.entries) (ha : x.attempt = a) : x = e := by
  obtain ⟨hm, hea⟩ := w.mem_of_attempt? h
  exact w.eq_of_attempt_eq hx hm (ha.trans hea.symm)

end WellFormed

end Rostrum.Registry
