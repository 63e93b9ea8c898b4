import Rostrum.Proofs.Registry.Views

/-!
# What changes in the registry

Six elementary changes make up all operations: nothing, another buffer, a new attempt, an entry that
is superseded, one that is modified in its place and one that is taken out.
-/

namespace Rostrum.Registry

/-- An entry becomes another one of the same attempt and never loses what it has reached. -/
structure Evolves (e e' : Entry) : Prop where
  attempt : e'.attempt = e.attempt
  role : e'.role = e.role
  stopped : e.stopped → e'.stopped
  endpointReady : e.endpointReady → e'.endpointReady
  phase : e.phase = .ready → e'.phase = .ready

theorem Evolves.refl (e : Entry) : Evolves e e := ⟨rfl, rfl, id, id, id⟩

theorem Evolves.trans {e e' e'' : Entry} (h : Evolves e e') (h' : Evolves e' e'') : Evolves e e'' :=
  ⟨h'.attempt.trans h.attempt, h'.role.trans h.role, h'.stopped ∘ h.stopped,
    h'.endpointReady ∘ h.endpointReady, h'.phase ∘ h.phase⟩

/-- Takes out the entry of an attempt, and leaves the buffer as it is. -/
def takeOut (r : Registry) (s : SessionId) (a : Attempt) : Registry :=
  if r.isCurrent s a then r.dropEntry s else { r with superseded := r.superseded.erase a }

/-- The entry a new attempt begins with. -/
def newEntry (r : Registry) (role : Role) : Entry :=
  { attempt := ⟨r.lastAttempt + 1⟩, role := role }

/-- An elementary change. -/
inductive Change (r : Registry) : Registry → Prop where
  | rebuffer (b : CandidateBuffer) : Change r { r with buffer := b }
  | add (s : SessionId) (role : Role) : r.entry? s = none → Change r (r.addAttempt s role).2
  | supersede (s : SessionId) (e : Entry) :
      r.entry? s = some e → e.stopped → Change r (r.supersede s e)
  | modify (s : SessionId) (a : Attempt) (e : Entry) (f : Entry → Entry) :
      r.attempt? s a = some e → Evolves e (f e) → ((f e).stopped → (f e).phase = .pending) →
      Change r (r.modifyAttempt s a f)
  | take (s : SessionId) (a : Attempt) (e : Entry) :
      r.attempt? s a = some e → Change r (r.takeOut s a)

section Tables
variable (r : Registry) (s : SessionId)

theorem addAttempt_eq (role : Role) :
    (r.addAttempt s role).2 =
      { r with lastAttempt := r.lastAttempt + 1 }.withTable role ((r.table role).put s (r.newEntry role)) := by
  cases role <;> rfl

@[simp] theorem dropEntry_superseded : (r.dropEntry s).superseded = r.superseded := by
  unfold dropEntry
  split <;> rfl

@[simp] theorem dropEntry_buffer : (r.dropEntry s).buffer = r.buffer := by
  unfold dropEntry
  split <;> rfl

@[simp] theorem dropEntry_lastAttempt : (r.dropEntry s).lastAttempt = r.lastAttempt := by
  unfold dropEntry
  split <;> rfl

end Tables

namespace WellFormed
variable {r : Registry} (w : r.WellFormed)
include w

theorem modifyEntry_eq {s : SessionId} {e : Entry} (h : r.entry? s = some e) (f : Entry → Entry) :
    r.modifyEntry s f = r.withTable e.role ((r.table e.role).put s (f e)) := by
  have ht := w.entry?_eq_some_iff.mp h
  rw [← Table.modify_of_get? ht f]
  unfold modifyEntry
  cases hr : e.role with
  | presenter =>
    rw [hr] at ht
    have hp : r.presenters.get? s = some e := ht
    simp only [Table.contains, hp, Option.isSome_some, if_true]
    rfl
  | viewer =>
    have hp : r.presenters.get? s = none := w.other_table ht (by rw [hr]; decide : e.role ≠ .presenter)
    simp only [Table.contains, hp, Option.isSome_none, Bool.false_eq_true, if_false]
    rfl

theorem dropEntry_eq {s : SessionId} {e : Entry} (h : r.entry? s = some e) :
    r.dropEntry s = r.withTable e.role ((r.table e.role).erase s) := by
  have ht := w.entry?_eq_some_iff.mp h
  unfold dropEntry
  cases hr : e.role with
  | presenter =>
    rw [hr] at ht
    have hp : r.presenters.get? s = some e := ht
    simp only [Table.contains, hp, Option.isSome_some, if_true]
    rfl
  | viewer =>
    have hp : r.presenters.get? s = none := w.other_table ht (by rw [hr]; decide : e.role ≠ .presenter)
    simp only [Table.contains, hp, Option.isSome_none, Bool.false_eq_true, if_false]
    rfl

/-- What has to be checked when one table of a role is exchanged. -/
theorem withTable {role : Role} {t : Table SessionId Entry} (hd : t.Distinct)
    (hrole : ∀ s e, t.get? s = some e → e.role = role)
    (hother : ∀ s e role', t.get? s = some e → role ≠ role' → (r.table role').get? s = none)
    (hn : ((r.withTable role t).entries.map Entry.attempt).Nodup)
    (hle : ∀ e ∈ (r.withTable role t).entries, e.attempt.number ≤ r.lastAttempt)
    (hsp : ∀ e ∈ (r.withTable role t).entries, e.stopped → e.phase = .pending) :
    (r.withTable role t).WellFormed where
  tables_distinct role' := by
    by_cases h : role = role'
    · subst h
      rwa [table_withTable_self]
    · rw [table_withTable_of_ne _ _ h]
      exact w.tables_distinct role'
  superseded_distinct := by
    rw [withTable_superseded]
    exact w.superseded_distinct
  one_table s role₁ role₂ h₁ h₂ := by
    have key : ∀ role', (r.table role').contains s → role ≠ role' → ¬ t.contains s := by
      intro role' hc hne ht
      obtain ⟨e, he⟩ := Option.isSome_iff_exists.mp ht
      simp [Table.contains, hother s e role' he hne] at hc
    by_cases hr₁ : role = role₁ <;> by_cases hr₂ : role = role₂
    · exact hr₁.symm.trans hr₂
    · subst hr₁
      rw [table_withTable_self] at h₁
      rw [table_withTable_of_ne _ _ hr₂] at h₂
      exact absurd h₁ (key role₂ h₂ hr₂)
    · subst hr₂
      rw [table_withTable_self] at h₂
      rw [table_withTable_of_ne _ _ hr₁] at h₁
      exact absurd h₂ (key role₁ h₁ hr₁)
    · rw [table_withTable_of_ne _ _ hr₁] at h₁
      rw [table_withTable_of_ne _ _ hr₂] at h₂
      exact w.one_table s role₁ role₂ h₁ h₂
  role_of_table role' s e h := by
    by_cases hr : role = role'
    · subst hr
      rw [table_withTable_self] at h
      exact hrole s e h
    · rw [table_withTable_of_ne _ _ hr] at h
      exact w.role_of_table role' s e h
  attempts_nodup := hn
  attempt_le := by
    rw [withTable_lastAttempt]
    exact hle
  superseded_key := by
    rw [withTable_superseded]
    exact w.superseded_key
  superseded_stopped := by
    rw [withTable_superseded]
    exact w.superseded_stopped
  stopped_pending := hsp

theorem withTable_put {role : Role} {s : SessionId} {e e' : Entry} (h : (r.table role).get? s = some e)
    (ha : e'.attempt = e.attempt) (hr : e'.role = role) (hsp : e'.stopped → e'.phase = .pending) :
    (r.withTable role ((r.table role).put s e')).WellFormed := by
  have hd := w.tables_distinct role
  have hold : r.entries = e ::ₘ (((r.table role).erase s).contents + r.entriesBeside role) := by
    rw [entries_eq r role, Table.contents_of_get? hd h, Multiset.cons_add]
  have hnew : (r.withTable role ((r.table role).put s e')).entries =
      e' ::ₘ (((r.table role).erase s).contents + r.entriesBeside role) := by
    rw [entries_withTable, Table.contents_put hd, Multiset.cons_add]
  have hsub : ∀ x ∈ (r.withTable role ((r.table role).put s e')).entries, x = e' ∨ x ∈ r.entries := by
    intro x hx
    rw [hnew] at hx
    rcases Multiset.mem_cons.mp hx with rfl | hx
    · exact Or.inl rfl
    · exact Or.inr (hold ▸ Multiset.mem_cons_of_mem hx)
  apply w.withTable (Table.distinct_put hd s e')
  · intro s' x hx
    rw [Table.get?_put] at hx
    split at hx
    · cases hx
      exact hr
    · exact w.role_of_table role s' x hx
  · intro s' x role' hx hne
    rw [Table.get?_put] at hx
    split at hx
    · rename_i hs
      subst hs
      exact w.other_table h hne
    · exact w.other_table hx hne
  · have hn := w.attempts_nodup
    rw [hold, Multiset.map_cons] at hn
    rwa [hnew, Multiset.map_cons, ha]
  · intro x hx
    rcases hsub x hx with rfl | hx
    · rw [ha]
      exact w.attempt_le e (mem_entries_of_table h)
    · exact w.attempt_le x hx
  · intro x hx
    rcases hsub x hx with rfl | hx
    · exact hsp
    · exact w.stopped_pending x hx

theorem withTable_erase (role : Role) (s : SessionId) :
    (r.withTable role ((r.table role).erase s)).WellFormed := by
  have hd := w.tables_distinct role
  have hle : (r.withTable role ((r.table role).erase s)).entries ≤ r.entries := by
    rw [entries_withTable, entries_eq r role]
    gcongr
    exact Multiset.coe_le.mpr (List.filter_sublist.map Prod.snd).subperm
  have hold : ∀ s' x, ((r.table role).erase s).get? s' = some x → (r.table role).get? s' = some x := by
    intro s' x hx
    rw [Table.get?_erase] at hx
    split at hx
    · cases hx
    · exact hx
  apply w.withTable (Table.distinct_erase hd s)
  · exact fun s' x hx => w.role_of_table role s' x (hold s' x hx)
  · exact fun s' x role' hx hne => w.other_table (hold s' x hx) hne
  · exact Multiset.nodup_of_le (Multiset.map_le_map hle) w.attempts_nodup
  · exact fun x hx => w.attempt_le x (Multiset.mem_of_le hle hx)
  · exact fun x hx => w.stopped_pending x (Multiset.mem_of_le hle hx)

/-- What has to be checked when the superseded entries are exchanged. -/
theorem withSuperseded {t : Table Attempt Entry} (hd : t.Distinct)
    (ht : ∀ a e, t.get? a = some e → e.attempt = a ∧ e.stopped)
    (hn : (({ r with superseded := t } : Registry).entries.map Entry.attempt).Nodup)
    (hle : ∀ e ∈ ({ r with superseded := t } : Registry).entries, e.attempt.number ≤ r.lastAttempt)
    (hsp : ∀ e ∈ ({ r with superseded := t } : Registry).entries, e.stopped → e.phase = .pending) :
    ({ r with superseded := t } : Registry).WellFormed :=
  ⟨w.tables_distinct, hd, w.one_table, w.role_of_table, hn, hle, fun a e h => (ht a e h).1,
    fun a e h => (ht a e h).2, hsp⟩

theorem rebuffer (b : CandidateBuffer) : ({ r with buffer := b } : Registry).WellFormed :=
  ⟨w.tables_distinct, w.superseded_distinct, w.one_table, w.role_of_table, w.attempts_nodup,
    w.attempt_le, w.superseded_key, w.superseded_stopped, w.stopped_pending⟩

theorem entries_dropEntry {s : SessionId} {e : Entry} (h : r.entry? s = some e) :
    r.entries = e ::ₘ (r.dropEntry s).entries := by
  have ht := w.entry?_eq_some_iff.mp h
  rw [w.dropEntry_eq h, entries_withTable, entries_eq r e.role,
    Table.contents_of_get? (w.tables_distinct e.role) ht, Multiset.cons_add]

theorem dropEntry {s : SessionId} {e : Entry} (h : r.entry? s = some e) :
    (r.dropEntry s).WellFormed := by
  rw [w.dropEntry_eq h]
  exact w.withTable_erase e.role s

theorem entries_addAttempt {s : SessionId} (h : r.entry? s = none) (role : Role) :
    (r.addAttempt s role).2.entries = r.newEntry role ::ₘ r.entries := by
  have hs := entry?_eq_none_iff.mp h role
  rw [addAttempt_eq, entries_withTable, entries_eq r role, Table.contents_put (w.tables_distinct role),
    Table.erase_of_get?_eq_none hs, Multiset.cons_add]
  cases role <;> rfl

theorem addAttempt {s : SessionId} (h : r.entry? s = none) (role : Role) :
    (r.addAttempt s role).2.WellFormed := by
  have hs := entry?_eq_none_iff.mp h
  have he := w.entries_addAttempt h role
  rw [addAttempt_eq] at he ⊢
  have hlast : ({ r with lastAttempt := r.lastAttempt + 1 } : Registry).WellFormed :=
    ⟨w.tables_distinct, w.superseded_distinct, w.one_table, w.role_of_table, w.attempts_nodup,
      fun e h => Nat.le_succ_of_le (w.attempt_le e h), w.superseded_key, w.superseded_stopped,
      w.stopped_pending⟩
  apply hlast.withTable (Table.distinct_put (w.tables_distinct role) s _)
  · intro s' x hx
    rw [Table.get?_put] at hx
    split at hx
    · cases hx
      rfl
    · exact w.role_of_table role s' x hx
  · intro s' x role' hx hne
    rw [Table.get?_put] at hx
    split at hx
    · rename_i hs'
      subst hs'
      exact hs role'
    · exact w.other_table hx hne
  · rw [he, Multiset.map_cons, Multiset.nodup_cons]
    refine ⟨?_, w.attempts_nodup⟩
    intro hm
    obtain ⟨x, hx, hxa⟩ := Multiset.mem_map.mp hm
    have hle := w.attempt_le x hx
    rw [hxa] at hle
    exact Nat.not_succ_le_self _ hle
  · intro x hx
    rw [he] at hx
    rcases Multiset.mem_cons.mp hx with rfl | hx
    · exact Nat.le_refl _
    · exact Nat.le_succ_of_le (w.attempt_le x hx)
  · intro x hx hst
    rw [he] at hx
    rcases Multiset.mem_cons.mp hx with rfl | hx
    · rfl
    · exact w.stopped_pending x hx hst

theorem entries_supersede {s : SessionId} {e : Entry} (h : r.entry? s = some e) :
    (r.supersede s e).entries = r.entries := by
  have hs : (r.dropEntry s).superseded.get? e.attempt = none := by
    rw [Registry.dropEntry_superseded]
    exact w.superseded_of_current h
  have hd : (r.dropEntry s).superseded.Distinct := by
    rw [Registry.dropEntry_superseded]
    exact w.superseded_distinct
  rw [w.entries_dropEntry h, entries, entries]
  change _ + ((r.dropEntry s).superseded.put e.attempt e).contents = _
  rw [Table.contents_put hd, Table.erase_of_get?_eq_none hs, Multiset.add_cons]
  rfl

theorem supersede {s : SessionId} {e : Entry} (h : r.entry? s = some e) (hst : e.stopped) :
    (r.supersede s e).WellFormed := by
  have w' := w.dropEntry h
  have he := w.entries_supersede h
  apply w'.withSuperseded (Table.distinct_put w'.superseded_distinct e.attempt e)
  · intro a x hx
    rw [Table.get?_put] at hx
    split at hx
    · rename_i ha
      cases hx
      exact ⟨ha, hst⟩
    · exact ⟨w'.superseded_key a x hx, w'.superseded_stopped a x hx⟩
  · exact he ▸ w.attempts_nodup
  · intro x hx
    rw [dropEntry_lastAttempt]
    exact w.attempt_le x (he ▸ hx)
  · exact fun x hx => w.stopped_pending x (he ▸ hx)

theorem entries_modifyAttempt {s : SessionId} {a : Attempt} {e : Entry} (h : r.attempt? s a = some e)
    (f : Entry → Entry) :
    ∃ rest, r.entries = e ::ₘ rest ∧ (r.modifyAttempt s a f).entries = f e ::ₘ rest := by
  unfold Registry.modifyAttempt
  unfold attempt? at h
  split at h
  · rename_i hc
    have hd := w.tables_distinct e.role
    have ht := w.entry?_eq_some_iff.mp h
    refine ⟨((r.table e.role).erase s).contents + r.entriesBeside e.role, ?_, ?_⟩
    · rw [entries_eq r e.role, Table.contents_of_get? hd ht, Multiset.cons_add]
    · rw [if_pos hc, w.modifyEntry_eq h, entries_withTable, Table.contents_put hd, Multiset.cons_add]
  · rename_i hc
    refine ⟨r.presenters.contents + r.viewers.contents + (r.superseded.erase a).contents, ?_, ?_⟩
    · rw [entries, Table.contents_of_get? w.superseded_distinct h, Multiset.add_cons]
    · rw [if_neg hc, entries]
      change _ + (r.superseded.modify a f).contents = _
      rw [Table.modify_of_get? h, Table.contents_put w.superseded_distinct, Multiset.add_cons]

theorem modifyAttempt {s : SessionId} {a : Attempt} {e : Entry} {f : Entry → Entry}
    (h : r.attempt? s a = some e) (hev : Evolves e (f e)) (hsp : (f e).stopped → (f e).phase = .pending) :
    (r.modifyAttempt s a f).WellFormed := by
  obtain ⟨rest, hold, hnew⟩ := w.entries_modifyAttempt h f
  have hkey := (w.mem_of_attempt? h).2
  have hmem := (w.mem_of_attempt? h).1
  unfold Registry.modifyAttempt at hnew ⊢
  unfold attempt? at h
  split at h
  · rename_i hc
    rw [if_pos hc, w.modifyEntry_eq h]
    exact w.withTable_put (w.entry?_eq_some_iff.mp h) hev.attempt hev.role hsp
  · rename_i hc
    rw [if_neg hc] at hnew ⊢
    have hsub : ∀ x ∈ ({ r with superseded := r.superseded.modify a f } : Registry).entries,
        x = f e ∨ x ∈ r.entries := by
      intro x hx
      rw [hnew] at hx
      rcases Multiset.mem_cons.mp hx with rfl | hx
      · exact Or.inl rfl
      · exact Or.inr (hold ▸ Multiset.mem_cons_of_mem hx)
    apply w.withSuperseded (Table.distinct_modify w.superseded_distinct a f)
    · intro a' x hx
      rw [Table.modify_of_get? h, Table.get?_put] at hx
      split at hx
      · rename_i ha
        cases hx
        exact ⟨hev.attempt.trans (hkey.trans ha), hev.stopped (w.superseded_stopped a e h)⟩
      · exact ⟨w.superseded_key a' x hx, w.superseded_stopped a' x hx⟩
    · have hn := w.attempts_nodup
      rw [hold, Multiset.map_cons] at hn
      rwa [hnew, Multiset.map_cons, hev.attempt]
    · intro x hx
      rcases hsub x hx with rfl | hx
      · rw [hev.attempt]
        exact w.attempt_le e hmem
      · exact w.attempt_le x hx
    · intro x hx
      rcases hsub x hx with rfl | hx
      · exact hsp
      · exact w.stopped_pending x hx

theorem entries_takeOut {s : SessionId} {a : Attempt} {e : Entry} (h : r.attempt? s a = some e) :
    r.entries = e ::ₘ (r.takeOut s a).entries := by
  unfold Registry.takeOut
  unfold attempt? at h
  split at h
  · rename_i hc
    rw [if_pos hc]
    exact w.entries_dropEntry h
  · rename_i hc
    rw [if_neg hc, entries, entries, Table.contents_of_get? w.superseded_distinct h, Multiset.add_cons]

theorem takeOut {s : SessionId} {a : Attempt} {e : Entry} (h : r.attempt? s a = some e) :
    (r.takeOut s a).WellFormed := by
  have he := w.entries_takeOut h
  have hle : (r.takeOut s a).entries ≤ r.entries := he ▸ Multiset.le_cons_self _ e
  unfold Registry.takeOut at hle ⊢
  unfold attempt? at h
  split at h
  · rename_i hc
    rw [if_pos hc]
    exact w.dropEntry h
  · rename_i hc
    rw [if_neg hc] at hle ⊢
    apply w.withSuperseded (Table.distinct_erase w.superseded_distinct a)
    · intro a' x hx
      rw [Table.get?_erase] at hx
      split at hx
      · cases hx
      · exact ⟨w.superseded_key a' x hx, w.superseded_stopped a' x hx⟩
    · exact Multiset.nodup_of_le (Multiset.map_le_map hle) w.attempts_nodup
    · exact fun x hx => w.attempt_le x (Multiset.mem_of_le hle hx)
    · exact fun x hx => w.stopped_pending x (Multiset.mem_of_le hle hx)

end WellFormed

theorem Change.wellFormed {r r' : Registry} (h : Change r r') (w : r.WellFormed) : r'.WellFormed := by
  cases h with
  | rebuffer b => exact w.rebuffer b
  | add s role hs => exact w.addAttempt hs role
  | supersede s e he hst => exact w.supersede he hst
  | modify s a e f he hev hsp => exact w.modifyAttempt he hev hsp
  | take s a e he => exact w.takeOut he

end Rostrum.Registry
