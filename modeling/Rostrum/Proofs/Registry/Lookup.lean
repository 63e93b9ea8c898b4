import Rostrum.Proofs.Registry.Changes

/-!
# Where entries stand after a change

The current entry of a session and the entry of an attempt after every elementary change. A change
touches one session or one attempt, and what is said of all others is that they stay.
-/

namespace Rostrum.Registry

section Frame
variable (r : Registry) (s : SessionId) (a : Attempt) (f : Entry → Entry)

@[simp] theorem modifyEntry_superseded : (r.modifyEntry s f).superseded = r.superseded := by
  unfold modifyEntry
  split <;> rfl

@[simp] theorem modifyEntry_buffer : (r.modifyEntry s f).buffer = r.buffer := by
  unfold modifyEntry
  split <;> rfl

@[simp] theorem modifyEntry_lastAttempt : (r.modifyEntry s f).lastAttempt = r.lastAttempt := by
  unfold modifyEntry
  split <;> rfl

@[simp] theorem modifyAttempt_buffer : (r.modifyAttempt s a f).buffer = r.buffer := by
  unfold modifyAttempt
  split <;> simp

@[simp] theorem modifyAttempt_lastAttempt : (r.modifyAttempt s a f).lastAttempt = r.lastAttempt := by
  unfold modifyAttempt
  split <;> simp

@[simp] theorem takeOut_buffer : (r.takeOut s a).buffer = r.buffer := by
  unfold takeOut
  split <;> simp

@[simp] theorem takeOut_lastAttempt : (r.takeOut s a).lastAttempt = r.lastAttempt := by
  unfold takeOut
  split <;> simp

@[simp] theorem clearBuffer_lastAttempt : (r.clearBuffer s).lastAttempt = r.lastAttempt := rfl

@[simp] theorem clearBuffer_attempt? (s' : SessionId) :
    (r.clearBuffer s).attempt? s' a = r.attempt? s' a := rfl

@[simp] theorem supersede_buffer (e : Entry) : (r.supersede s e).buffer = r.buffer :=
  dropEntry_buffer r s

@[simp] theorem supersede_lastAttempt (e : Entry) : (r.supersede s e).lastAttempt = r.lastAttempt :=
  dropEntry_lastAttempt r s

@[simp] theorem addAttempt_superseded (role : Role) :
    (r.addAttempt s role).2.superseded = r.superseded := by
  cases role <;> rfl

@[simp] theorem addAttempt_buffer (role : Role) : (r.addAttempt s role).2.buffer = r.buffer := by
  cases role <;> rfl

@[simp] theorem addAttempt_lastAttempt (role : Role) :
    (r.addAttempt s role).2.lastAttempt = r.lastAttempt + 1 := by
  cases role <;> rfl

end Frame

section Current
variable {r : Registry} {s : SessionId}

theorem entry?_modifyEntry (s' : SessionId) (f : Entry → Entry) :
    entry? (r.modifyEntry s f) s' = if s = s' then (r.entry? s).map f else r.entry? s' := by
  unfold modifyEntry entry? Table.contains
  cases hp : r.presenters.get? s with
  | some e =>
    by_cases h : s = s'
    · subst h
      simp [Table.get?_modify, hp]
    · simp [Table.get?_modify, h]
  | none =>
    by_cases h : s = s'
    · subst h
      simp [Table.get?_modify, hp]
    · simp [Table.get?_modify, h]

theorem entry?_addAttempt (h : r.entry? s = none) (role : Role) (s' : SessionId) :
    entry? (r.addAttempt s role).2 s' = if s = s' then some (r.newEntry role) else r.entry? s' := by
  obtain ⟨hp, hv⟩ := Option.or_eq_none_iff.mp h
  by_cases hs : s = s'
  · subst hs
    cases role <;> simp [addAttempt, entry?, newEntry, hp]
  · cases role <;> simp [addAttempt, entry?, Table.get?_put, hs]

theorem WellFormed.entry?_dropEntry (w : r.WellFormed) {e : Entry} (h : r.entry? s = some e)
    (s' : SessionId) : entry? (r.dropEntry s) s' = if s = s' then none else r.entry? s' := by
  rw [w.dropEntry_eq h]
  have ht := w.entry?_eq_some_iff.mp h
  by_cases hs : s = s'
  · subst hs
    rw [if_pos rfl]
    apply entry?_eq_none_iff.mpr
    intro role
    by_cases hr : e.role = role
    · subst hr
      rw [table_withTable_self, Table.get?_erase_self]
    · rw [table_withTable_of_ne _ _ hr]
      exact w.other_table ht hr
  · rw [if_neg hs]
    cases hr : e.role <;> simp [Registry.withTable, entry?, table, Table.get?_erase, hs]

theorem WellFormed.entry?_supersede (w : r.WellFormed) {e : Entry} (h : r.entry? s = some e)
    (s' : SessionId) : entry? (r.supersede s e) s' = if s = s' then none else r.entry? s' :=
  w.entry?_dropEntry h s'

theorem WellFormed.entry?_supersede_self (w : r.WellFormed) {e : Entry} (h : r.entry? s = some e) :
    entry? (r.supersede s e) s = none := by
  rw [w.entry?_supersede h, if_pos rfl]

end Current

namespace WellFormed
variable {r : Registry} (w : r.WellFormed)
include w

theorem isCurrent_of_attempt? {s : SessionId} {a : Attempt} {e : Entry} (h : r.attempt? s a = some e)
    (hs : ¬ e.stopped) : r.entry? s = some e := by
  obtain ⟨_, hc | hsup⟩ := w.attempt?_eq_some_iff.mp h
  · exact hc
  · exact absurd (w.superseded_stopped a e hsup) hs

theorem attempt?_of_current {s : SessionId} {e : Entry} (h : r.entry? s = some e) :
    r.attempt? s e.attempt = some e :=
  w.attempt?_eq_some_iff.mpr ⟨rfl, Or.inl h⟩

theorem attempt?_of_superseded {a : Attempt} {e : Entry} (h : r.superseded.get? a = some e)
    (s : SessionId) : r.attempt? s a = some e :=
  w.attempt?_eq_some_iff.mpr ⟨w.superseded_key a e h, Or.inr h⟩

theorem attempt?_eq_none_of_new (s : SessionId) : r.attempt? s ⟨r.lastAttempt + 1⟩ = none := by
  rw [Option.eq_none_iff_forall_ne_some]
  intro e he
  obtain ⟨hm, ha⟩ := w.mem_of_attempt? he
  have hle := w.attempt_le e hm
  rw [ha] at hle
  exact Nat.not_succ_le_self _ hle

theorem ne_of_superseded {s' : SessionId} {a : Attempt} {e x : Entry} (h : r.superseded.get? a = some e)
    (hx : r.entry? s' = some x) : x.attempt ≠ a := by
  rintro rfl
  rw [w.superseded_of_current hx] at h
  cases h

theorem entry?_modifyAttempt {s : SessionId} {a : Attempt} {e : Entry} (h : r.attempt? s a = some e)
    (f : Entry → Entry) (s' : SessionId) :
    entry? (r.modifyAttempt s a f) s' =
      (r.entry? s').map fun x => if x.attempt = a then f x else x := by
  have ha := (w.mem_of_attempt? h).2
  unfold Registry.modifyAttempt
  unfold attempt? at h
  split at h
  · rename_i hc
    rw [if_pos hc, Registry.entry?_modifyEntry, h]
    by_cases hs : s = s'
    · subst hs
      simp [h, ha]
    · rw [if_neg hs]
      cases hx : r.entry? s' with
      | none => rfl
      | some x =>
        have hne : x.attempt ≠ a := fun hxa => hs (w.session_eq h hx (ha.trans hxa.symm))
        simp [hne]
  · rename_i hc
    rw [if_neg hc]
    change r.entry? s' = _
    cases hx : r.entry? s' with
    | none => rfl
    | some x => simp [w.ne_of_superseded h hx]

theorem superseded_modifyAttempt {s : SessionId} {a : Attempt} {e : Entry} (h : r.attempt? s a = some e)
    (f : Entry → Entry) (a' : Attempt) :
    (r.modifyAttempt s a f).superseded.get? a' =
      (r.superseded.get? a').map fun x => if x.attempt = a then f x else x := by
  have ha := (w.mem_of_attempt? h).2
  unfold Registry.modifyAttempt
  unfold attempt? at h
  split at h
  · rename_i hc
    rw [if_pos hc, modifyEntry_superseded]
    cases hx : r.superseded.get? a' with
    | none => rfl
    | some x =>
      have hne : x.attempt ≠ a := by
        rw [w.superseded_key a' x hx, ← ha]
        exact fun haa => w.ne_of_superseded hx h haa.symm
      simp [hne]
  · rename_i hc
    rw [if_neg hc]
    change (r.superseded.modify a f).get? a' = _
    rw [Table.get?_modify]
    by_cases haa : a = a'
    · subst haa
      rw [if_pos rfl, h]
      simp [ha]
    · rw [if_neg haa]
      cases hx : r.superseded.get? a' with
      | none => rfl
      | some x =>
        have hne : x.attempt ≠ a := by
          rw [w.superseded_key a' x hx]
          exact Ne.symm haa
        simp [hne]

theorem entry?_takeOut {s : SessionId} {a : Attempt} {e : Entry} (h : r.attempt? s a = some e)
    (s' : SessionId) :
    entry? (r.takeOut s a) s' = (r.entry? s').filter fun x => x.attempt ≠ a := by
  have ha := (w.mem_of_attempt? h).2
  unfold Registry.takeOut
  unfold attempt? at h
  split at h
  · rename_i hc
    rw [if_pos hc, w.entry?_dropEntry h]
    by_cases hs : s = s'
    · subst hs
      simp [h, Option.filter_some, ha]
    · rw [if_neg hs]
      cases hx : r.entry? s' with
      | none => rfl
      | some x =>
        have hne : x.attempt ≠ a := fun hxa => hs (w.session_eq h hx (ha.trans hxa.symm))
        simp [Option.filter_some, hne]
  · rename_i hc
    rw [if_neg hc]
    change r.entry? s' = _
    cases hx : r.entry? s' with
    | none => rfl
    | some x => simp [Option.filter_some, w.ne_of_superseded h hx]

theorem superseded_takeOut {s : SessionId} {a : Attempt} {e : Entry} (h : r.attempt? s a = some e)
    (a' : Attempt) :
    (r.takeOut s a).superseded.get? a' = (r.superseded.get? a').filter fun x => x.attempt ≠ a := by
  have ha := (w.mem_of_attempt? h).2
  unfold Registry.takeOut
  unfold attempt? at h
  split at h
  · rename_i hc
    rw [if_pos hc, Registry.dropEntry_superseded]
    cases hx : r.superseded.get? a' with
    | none => rfl
    | some x =>
      have hne : x.attempt ≠ a := by
        rw [w.superseded_key a' x hx, ← ha]
        exact fun haa => w.ne_of_superseded hx h haa.symm
      simp [Option.filter_some, hne]
  · rename_i hc
    rw [if_neg hc]
    change (r.superseded.erase a).get? a' = _
    rw [Table.get?_erase]
    by_cases haa : a = a'
    · subst haa
      simp [h, Option.filter_some, ha]
    · rw [if_neg haa]
      cases hx : r.superseded.get? a' with
      | none => rfl
      | some x =>
        have hne : x.attempt ≠ a := by
          rw [w.superseded_key a' x hx]
          exact Ne.symm haa
        simp [Option.filter_some, hne]

theorem attempt?_modifyAttempt {s : SessionId} {a : Attempt} {e : Entry} (h : r.attempt? s a = some e)
    {f : Entry → Entry} (hf : ∀ x, (f x).attempt = x.attempt) (s' : SessionId) (a' : Attempt) :
    (r.modifyAttempt s a f).attempt? s' a' =
      (r.attempt? s' a').map fun x => if x.attempt = a then f x else x := by
  have hcur : (r.modifyAttempt s a f).isCurrent s' a' = r.isCurrent s' a' := by
    unfold isCurrent
    rw [w.entry?_modifyAttempt h]
    cases r.entry? s' with
    | none => rfl
    | some x => by_cases hx : x.attempt = a <;> simp [hx, hf]
  unfold attempt?
  rw [hcur, w.entry?_modifyAttempt h, w.superseded_modifyAttempt h]
  split <;> rfl

theorem attempt?_takeOut {s : SessionId} {a : Attempt} {e : Entry} (h : r.attempt? s a = some e)
    (s' : SessionId) {a' : Attempt} (hne : a' ≠ a) :
    (r.takeOut s a).attempt? s' a' = r.attempt? s' a' := by
  have hcur : (r.takeOut s a).isCurrent s' a' = r.isCurrent s' a' := by
    unfold isCurrent
    rw [w.entry?_takeOut h]
    cases r.entry? s' with
    | none => rfl
    | some x => by_cases hx : x.attempt = a <;> simp [Option.filter_some, hx, Ne.symm hne]
  unfold attempt?
  rw [hcur]
  split
  · rename_i hc
    rw [w.entry?_takeOut h]
    unfold isCurrent at hc
    cases hx : r.entry? s' with
    | none => rfl
    | some x =>
      have hxa : x.attempt = a' := by simpa [hx] using hc
      simp [Option.filter_some, hxa, hne]
  · rw [w.superseded_takeOut h]
    cases hx : r.superseded.get? a' with
    | none => rfl
    | some x => simp [Option.filter_some, w.superseded_key a' x hx, hne]

omit w in
theorem attempt?_addAttempt {s : SessionId} (h : r.entry? s = none) (role : Role) (s' : SessionId)
    {a' : Attempt} (hne : a' ≠ ⟨r.lastAttempt + 1⟩) :
    (r.addAttempt s role).2.attempt? s' a' = r.attempt? s' a' := by
  unfold attempt? isCurrent
  rw [entry?_addAttempt h, addAttempt_superseded]
  by_cases hs : s = s'
  · subst hs
    simp [h, newEntry, Ne.symm hne]
  · simp [hs]

omit w in
theorem attempt?_addAttempt_self {s : SessionId} (h : r.entry? s = none) (role : Role) :
    (r.addAttempt s role).2.attempt? s ⟨r.lastAttempt + 1⟩ = some (r.newEntry role) := by
  unfold attempt? isCurrent
  rw [entry?_addAttempt h]
  simp [newEntry]

/-- A superseded entry is found as before, and from now on under every session. -/
theorem attempt?_supersede {s : SessionId} {e : Entry} (h : r.entry? s = some e) (hst : e.stopped)
    {s' : SessionId} {a' : Attempt} {x : Entry} (hx : r.attempt? s' a' = some x) :
    (r.supersede s e).attempt? s' a' = some x := by
  have w' := w.supersede h hst
  obtain ⟨hxa, hloc⟩ := w.attempt?_eq_some_iff.mp hx
  apply w'.attempt?_eq_some_iff.mpr
  refine ⟨hxa, ?_⟩
  have hsup : (r.supersede s e).superseded.get? a' =
      if e.attempt = a' then some e else r.superseded.get? a' := by
    change ((r.dropEntry s).superseded.put e.attempt e).get? a' = _
    rw [Table.get?_put, Registry.dropEntry_superseded]
  rcases hloc with hc | hs
  · by_cases hs : s = s'
    · subst hs
      obtain rfl : e = x := Option.some.inj (h.symm.trans hc)
      exact Or.inr (by rw [hsup, if_pos hxa])
    · exact Or.inl (by rw [w.entry?_supersede h, if_neg hs, hc])
  · right
    rw [hsup, hs]
    split
    · rename_i ha
      rw [← ha, w.superseded_of_current h] at hs
      cases hs
    · rfl

end WellFormed

end Rostrum.Registry
