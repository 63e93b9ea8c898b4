import Rostrum.Proofs.Broadcast.Journal

/-!
# Every object is released once

What calls made for negotiations is either stored in the registry, or waits for its release in the
task that took it out, or was released. It is in one of these places only, so nothing is released
twice, and what was released is not named again.
-/

namespace Rostrum.Broadcast

/-- An entry that holds both has its port released first. -/
theorem objects_of_holds {e : Entry} {port endpoint : ObjectId} (hp : e.Holds .port port)
    (hep : e.Holds .endpoint endpoint) : e.objects = [port, endpoint] := by
  simp only [Entry.Holds] at hp hep
  simp [Entry.objects, hp, hep]

theorem holds_of_mem {e : Entry} {id : ObjectId} (h : id ∈ e.objects) :
    ∃ kind, kind.isMedia ∧ e.Holds kind id :=
  (Entry.mem_objects_iff.mp h).elim (fun hp => ⟨.port, rfl, hp⟩) fun hep => ⟨.endpoint, rfl, hep⟩

theorem mem_of_holds {e : Entry} {kind : ObjectKind} {id : ObjectId} (h : e.Holds kind id) :
    id ∈ e.objects := by
  cases kind with
  | endpoint => exact Entry.mem_objects_iff.mpr (Or.inr h)
  | port => exact Entry.mem_objects_iff.mpr (Or.inl h)
  | pipeline | mixer => cases h

/-- What was made has names of its own, and is stored, waits, or was released. -/
structure Balanced (b : Broadcast) : Prop where
  made_nodup : ((made b.log).map Prod.snd).Nodup
  balance : (mediaOf (made b.log) : Multiset ObjectId) =
    b.coordinator.registry.objects + b.waiting + (disposed b.log : List ObjectId)

/-- What is known of the objects between two steps. -/
structure Accounts (b : Broadcast) : Prop extends Balanced b where
  mix_made : b.coordinator.mix.objects ⊆ made b.log
  task_made : ∀ t task, b.tasks.get? t = some task → task.mixObjects ⊆ made b.log
  attempt_le : ∀ a o, (a, o) ∈ madeFor b.log → a.number ≤ b.coordinator.registry.lastAttempt
  /-- An entry holds what was made for its attempt. -/
  carried : ∀ e ∈ b.coordinator.registry.entries, ∀ kind id, kind.isMedia →
    (e.Holds kind id ↔ (e.attempt, kind, id) ∈ madeFor b.log)
  released : ∀ event ∈ b.log, ∀ id, event.released? = some id →
    event.disposed? = some id ∨ ∃ kind, kind.isMedia = false ∧ (kind, id) ∈ made b.log
  unnamed : b.log.Pairwise fun event later => ∀ id, event.disposed? = some id → id ∉ later.names
  port_waiting : ∀ a port endpoint, (a, .port, port) ∈ madeFor b.log →
    (a, .endpoint, endpoint) ∈ madeFor b.log → ∀ t task, b.tasks.get? t = some task →
    endpoint ∈ restOf (some task) → port ∈ disposed b.log
  port_first : ∀ a port endpoint, (a, .port, port) ∈ madeFor b.log →
    (a, .endpoint, endpoint) ∈ madeFor b.log → ∀ earlier later,
    disposed b.log = earlier ++ endpoint :: later → port ∈ earlier

theorem accounts_empty : Accounts {} where
  made_nodup := List.nodup_nil
  mix_made := List.nil_subset _
  task_made _ _ h := by cases h
  balance := rfl
  attempt_le _ _ h := by cases h
  carried e h := by cases Multiset.notMem_zero e h
  released _ h := by cases h
  unnamed := List.Pairwise.nil
  port_waiting _ _ _ h := by cases h
  port_first _ _ _ h := by cases h

theorem media_of_madeFor {log : List Event} {a : Attempt} {kind : ObjectKind} {id : ObjectId}
    (h : (a, kind, id) ∈ madeFor log) (hkind : kind.isMedia) : id ∈ mediaOf (made log) :=
  mem_mediaOf_iff.mpr ⟨kind, hkind,
    (madeFor_sublist log).subset (List.mem_map.mpr ⟨_, h, rfl⟩)⟩

namespace Balanced
variable {b : Broadcast} (ac : b.Balanced)
include ac

/-- An object has one kind. -/
theorem kind_eq {kind kind' : ObjectKind} {id : ObjectId} (h : (kind, id) ∈ made b.log)
    (h' : (kind', id) ∈ made b.log) : kind = kind' :=
  congrArg Prod.fst (List.inj_on_of_nodup_map ac.made_nodup h h' rfl)

/-- What was made for a negotiation was made for one attempt only. -/
theorem madeFor_eq {a a' : Attempt} {kind kind' : ObjectKind} {id : ObjectId}
    (h : (a, kind, id) ∈ madeFor b.log) (h' : (a', kind', id) ∈ madeFor b.log) :
    a = a' ∧ kind = kind' := by
  have hsub : ((madeFor b.log).map fun x => x.2.2).Sublist ((made b.log).map Prod.snd) := by
    have hs := (madeFor_sublist b.log).map Prod.snd
    rwa [List.map_map] at hs
  have heq := List.inj_on_of_nodup_map (ac.made_nodup.sublist hsub) h h' rfl
  exact ⟨congrArg Prod.fst heq, congrArg (fun x => x.2.1) heq⟩

theorem media_nodup : (mediaOf (made b.log)).Nodup := by
  refine ac.made_nodup.sublist (filterMap_sublist_map ?_ _)
  intro o id ho
  split at ho <;> simp_all

theorem not_media {kind : ObjectKind} {id : ObjectId} (h : (kind, id) ∈ made b.log)
    (hkind : kind.isMedia = false) : id ∉ mediaOf (made b.log) := by
  intro hm
  obtain ⟨kind', hkind', h'⟩ := mem_mediaOf_iff.mp hm
  rw [ac.kind_eq h h', hkind'] at hkind
  cases hkind

theorem places_nodup :
    (b.coordinator.registry.objects + b.waiting + (disposed b.log : List ObjectId)).Nodup :=
  ac.balance ▸ Multiset.coe_nodup.mpr ac.media_nodup

theorem disposed_nodup : (disposed b.log).Nodup :=
  Multiset.coe_nodup.mp (Multiset.nodup_add.mp ac.places_nodup).2.1

/-- What waits for its release or was released is not stored. -/
theorem not_stored {id : ObjectId} (h : id ∈ b.waiting ∨ id ∈ disposed b.log) :
    id ∉ b.coordinator.registry.objects := by
  intro hm
  have hn := ac.places_nodup
  rw [add_assoc] at hn
  exact Multiset.disjoint_left.mp (Multiset.nodup_add.mp hn).2.2 hm
    (Multiset.mem_add.mpr (h.imp_right Multiset.mem_coe.mpr))

theorem media_of_place {id : ObjectId} (h : id ∈ b.waiting ∨ id ∈ disposed b.log) :
    id ∈ mediaOf (made b.log) := by
  rw [← Multiset.mem_coe, ac.balance, add_assoc]
  exact Multiset.mem_add.mpr (Or.inr (Multiset.mem_add.mpr (h.imp_right Multiset.mem_coe.mpr)))

end Balanced

section Take
variable {b : Broadcast} (h : b.Consistent) (ac : b.Accounts) {t : TaskId} {before : Option Task}
  {reply : Option Reply} {calls : List Registry.Call} {result : StepResult}
  (hbefore : b.tasks.get? t = before) (hf : Follows b.coordinator before reply calls result)
  (hfresh : ∀ o ∈ brought before reply, o.2 ∉ (made b.log).map Prod.snd)

include h hbefore in
theorem Consistent.entry_of_madeForBy {a : Attempt} {o : ObjectKind × ObjectId}
    (hm : (a, o) ∈ madeForBy before reply) :
    ∃ e ∈ b.coordinator.registry.entries, e.attempt = a := by
  obtain ⟨n, stage, hb, hlive, rfl⟩ := madeForBy_live hm
  obtain ⟨e, he, _⟩ := h.hasEntry_before hbefore n stage hb hlive
  exact ⟨e, h.wellFormed.mem_of_attempt? he⟩

include h hbefore hf

/-- What the call of a step names belongs to the mix, is stored, or is released by the step. -/
theorem Consistent.names_take {task : Task} (hafter : result.task.ongoing? = some task) {id : ObjectId}
    (hid : id ∈ (Event.issued t task).names) :
    (∃ kind, (kind, id) ∈ task.mixObjects) ∨ id ∈ result.coordinator.registry.objects ∨
      (Event.issued t task).disposed? = some id := by
  have h' := h.take hbefore hf
  refine names_cases h'.wellFormed ?_ ?_ hid
  · rintro n stage rfl hlive
    exact h.hasEntry_self hbefore hf hafter hlive
  · rintro s endpoint c rfl
    have hm := hf.move
    rw [hafter] at hm
    change endpoint.id ∈ result.coordinator.registry.objects
    rw [hf.registry]
    exact hm.apply_stored

include ac

/-- What is stored after a step or was handed out by it holds what was made for its attempt. -/
theorem Accounts.carried_take {e : Entry} (he : e ∈ result.coordinator.registry.entries ∨
      e ∈ Registry.handedOut (b.coordinator.registry.log calls)) {kind : ObjectKind} {id : ObjectId}
    (hkind : kind.isMedia) :
    e.Holds kind id ↔ (e.attempt, kind, id) ∈ madeFor (b.take t before reply calls result).log := by
  have w := h.wellFormed
  rw [hf.registry] at he
  rw [madeFor_take, List.mem_append]
  rcases hf.move.gains w (h.hasEntry_before hbefore) he with ⟨x, hx, ha, hgain⟩ | ⟨hlt, hnone⟩
  · rw [hgain kind id hkind, ac.carried x hx kind id hkind, ha]
  · -- the attempt was given out in this step, so nothing can have been made for it
    refine ⟨fun hheld => (hnone kind id hheld).elim, ?_⟩
    rintro (hold | hnew)
    · have hle := ac.attempt_le _ _ hold
      omega
    · obtain ⟨x, hx, ha⟩ := h.entry_of_madeForBy hbefore hnew
      have hle := w.attempt_le x hx
      rw [ha] at hle
      omega

include hfresh

theorem Balanced.take : (b.take t before reply calls result).Balanced where
  made_nodup := by
    have hone : ((brought before reply).map Prod.snd).Nodup := by
      unfold brought
      split
      · rename_i task reply
        cases madeBy task reply <;> simp
      · exact List.nodup_nil
    rw [made_take, List.map_append]
    refine List.nodup_append.mpr ⟨ac.made_nodup, hone, ?_⟩
    rintro id hold _ hnew rfl
    obtain ⟨o, ho, rfl⟩ := List.mem_map.mp hnew
    exact hfresh o ho hold
  balance := by
    have hm := hf.move.balance h.wellFormed (h.hasEntry_before hbefore)
    have hw := waiting_take h.tasks_distinct hbefore reply calls result
    rw [made_take, disposed_take, mediaOf_append, ← Multiset.coe_add, ac.balance, ← Multiset.coe_add]
    change _ = result.coordinator.registry.objects + _ + _
    rw [hf.registry]
    rw [← Multiset.coe_add] at hm
    -- what the acting task had to release is not among what waits afterwards, so it is added to both
    refine add_right_cancel (b := (restOf before : Multiset ObjectId)) ?_
    generalize (b.take t before reply calls result).waiting = waiting' at *
    calc b.coordinator.registry.objects + b.waiting + (disposed b.log : List ObjectId) +
          (mediaOf (brought before reply) : List ObjectId) + (restOf before : List ObjectId)
        = b.coordinator.registry.objects + (restOf before : List ObjectId) +
            (mediaOf (brought before reply) : List ObjectId) + b.waiting +
            (disposed b.log : List ObjectId) := by abel
      _ = (b.coordinator.registry.after calls).objects + (b.waiting +
            (restOf result.task.ongoing? : List ObjectId)) + (disposed b.log : List ObjectId) +
            (releasedBy result.task.ongoing? : List ObjectId) := by
          rw [← hm]
          abel
      _ = _ := by
          rw [← hw]
          abel

omit h hfresh in
theorem Accounts.held_take :
    held result.coordinator.mix result.task.ongoing? ⊆
      made (b.take t before reply calls result).log := by
  intro o ho
  rw [made_take]
  rcases List.mem_append.mp (hf.mix ho) with hold | hnew
  · refine List.mem_append_left _ ?_
    rcases List.mem_append.mp hold with hmix | htask
    · exact ac.mix_made hmix
    · obtain ⟨task, hb, hm⟩ := List.mem_flatMap.mp htask
      exact ac.task_made t task (hbefore.trans (Option.mem_toList.mp hb)) hm
  · exact List.mem_append_right _ hnew

omit hf in
/-- Nothing more is made for an attempt whose endpoint was taken out. -/
theorem Accounts.madeFor_old {a : Attempt} {port endpoint : ObjectId}
    (hp : (a, .port, port) ∈ madeFor (b.take t before reply calls result).log)
    (hep : (a, .endpoint, endpoint) ∈ madeFor (b.take t before reply calls result).log)
    (hout : endpoint ∈ b.waiting ∨ endpoint ∈ disposed b.log) :
    (a, .port, port) ∈ madeFor b.log ∧ (a, .endpoint, endpoint) ∈ madeFor b.log := by
  rw [madeFor_take] at hp hep
  have hmade := ac.media_of_place hout
  -- the endpoint is not fresh, and a port is made only while the entry of its attempt is stored
  have hold : (a, .endpoint, endpoint) ∈ madeFor b.log := by
    refine (List.mem_append.mp hep).resolve_right fun hnew => ?_
    obtain ⟨kind, _, hm⟩ := mem_mediaOf_iff.mp hmade
    exact hfresh _ (mem_brought_of_madeForBy hnew) (List.mem_map.mpr ⟨_, hm, rfl⟩)
  refine ⟨(List.mem_append.mp hp).resolve_right fun hnew => ?_, hold⟩
  obtain ⟨e, he, rfl⟩ := h.entry_of_madeForBy hbefore hnew
  exact ac.not_stored hout (Registry.mem_objects he
    (mem_of_holds ((ac.carried e he .endpoint endpoint rfl).mpr hold)))

/-- When the endpoint of an attempt is taken down, its port was released or is released now. -/
theorem Accounts.port_taken {a : Attempt} {port endpoint : ObjectId} {d : Teardown}
    (hp : (a, .port, port) ∈ madeFor (b.take t before reply calls result).log)
    (hep : (a, .endpoint, endpoint) ∈ madeFor (b.take t before reply calls result).log)
    (hd : result.task.ongoing?.bind Task.teardown? = some d)
    (hmem : endpoint ∈ d.object :: d.rest) :
    port ∈ disposed b.log ∨ d.object = port ∧ d.rest = [endpoint] := by
  rcases hf.move.teardown_cases hd with ⟨x, hx, _, hrest⟩ | ⟨he, hobjects⟩
  · -- the task took it out in an earlier step
    obtain ⟨task, rfl, ht⟩ := Option.bind_eq_some_iff.mp hx
    have hlater : endpoint ∈ restOf (some task) := by
      simp [restOf, ht, hrest, List.mem_cons.mp hmem]
    obtain ⟨hp, hep⟩ :=
      ac.madeFor_old h hbefore hfresh hp hep (Or.inl (mem_waiting hbefore hlater))
    exact Or.inl (ac.port_waiting a port endpoint hp hep t task hbefore hlater)
  · -- the entry was handed out in this step, with the port in front
    have ac' := Balanced.take h ac hbefore hf hfresh
    have hcarried : ∀ kind id, kind.isMedia → (d.entry.Holds kind id ↔
        (d.entry.attempt, kind, id) ∈ madeFor (b.take t before reply calls result).log) :=
      fun _ _ hkind => ac.carried_take h hbefore hf (Or.inr he) hkind
    obtain ⟨kind, hkind, hheld⟩ := holds_of_mem (hobjects ▸ hmem)
    obtain ⟨ha, rfl⟩ := ac'.madeFor_eq ((hcarried kind endpoint hkind).mp hheld) hep
    have hport := (hcarried .port port rfl).mpr (ha ▸ hp)
    rw [objects_of_holds hport hheld] at hobjects
    obtain ⟨hobject, hrest⟩ := List.cons.inj hobjects
    exact Or.inr ⟨hobject.symm, hrest.symm⟩

theorem Accounts.unnamed_take : (b.take t before reply calls result).log.Pairwise
    fun event later => ∀ id, event.disposed? = some id → id ∉ later.names := by
  have ac' := Balanced.take h ac hbefore hf hfresh
  have hissued : ∀ earlier ∈ b.log, ∀ task, result.task.ongoing? = some task → ∀ id,
      earlier.disposed? = some id → id ∉ (Event.issued t task).names := by
    intro earlier hearlier task hafter id hd hid
    have hold : id ∈ disposed b.log := List.mem_filterMap.mpr ⟨earlier, hearlier, hd⟩
    have hold' : id ∈ disposed (b.take t before reply calls result).log := by
      rw [disposed_take]
      exact List.mem_append_left _ hold
    rcases h.names_take hbefore hf hafter hid with ⟨kind, hm⟩ | hm | hnow
    · have hmade : (kind, id) ∈ made (b.take t before reply calls result).log :=
        ac.held_take hbefore hf (List.mem_append_right _ (by simpa [hafter] using hm))
      exact ac'.not_media hmade (not_isMedia_of_mem hm) (ac'.media_of_place (Or.inr hold'))
    · exact ac'.not_stored (Or.inr hold') hm
    · have hn := ac'.disposed_nodup
      rw [disposed_take, hafter] at hn
      exact (List.disjoint_of_nodup_append hn) hold (Option.mem_toList.mpr hnow)
  rw [log_take, List.pairwise_append]
  refine ⟨ac.unnamed, ?_, ?_⟩
  · refine takeEvents_pairwise.imp fun hno id hd => ?_
    obtain ⟨t', task, rfl⟩ := issued_of_disposed hd
    exact (hno t' task rfl).elim
  · intro earlier hearlier event he
    rcases mem_takeEvents he with ⟨_, _, rfl⟩ | ⟨_, _, rfl⟩ | ⟨task, hafter, rfl⟩
    · exact fun _ _ => List.not_mem_nil
    · exact fun _ _ => List.not_mem_nil
    · exact hissued earlier hearlier task hafter

omit h hfresh in
theorem Accounts.released_take {event : Event} (he : event ∈ (b.take t before reply calls result).log)
    {id : ObjectId} (hid : event.released? = some id) :
    event.disposed? = some id ∨
      ∃ kind, kind.isMedia = false ∧ (kind, id) ∈ made (b.take t before reply calls result).log := by
  rw [log_take] at he
  rcases List.mem_append.mp he with he | he
  · refine (ac.released event he id hid).imp_right ?_
    rintro ⟨kind, hkind, hm⟩
    exact ⟨kind, hkind, made_take b .. ▸ List.mem_append_left _ hm⟩
  · rcases mem_takeEvents he with ⟨_, _, rfl⟩ | ⟨_, _, rfl⟩ | ⟨task, hafter, rfl⟩
    · cases hid
    · cases hid
    · refine (released_cases hid).imp_right ?_
      rintro ⟨kind, hm⟩
      exact ⟨kind, not_isMedia_of_mem hm,
        ac.held_take hbefore hf (List.mem_append_right _ (by simpa [hafter] using hm))⟩

theorem Accounts.take : (b.take t before reply calls result).Accounts where
  toBalanced := Balanced.take h ac hbefore hf hfresh
  mix_made o ho := ac.held_take hbefore hf (List.mem_append_left _ ho)
  task_made t' task htask o ho := by
    rw [get?_take] at htask
    split at htask
    · exact ac.held_take hbefore hf (List.mem_append_right _ (by simpa [htask] using ho))
    · rw [made_take]
      exact List.mem_append_left _ (ac.task_made t' task htask ho)
  attempt_le a o hm := by
    have hle := (h.wellFormed.after_changes calls).lastAttempt_le
    change _ ≤ result.coordinator.registry.lastAttempt
    rw [hf.registry]
    refine Nat.le_trans ?_ hle
    rw [madeFor_take] at hm
    rcases List.mem_append.mp hm with hold | hnew
    · exact ac.attempt_le a o hold
    · obtain ⟨e, he, rfl⟩ := h.entry_of_madeForBy hbefore hnew
      exact h.wellFormed.attempt_le e he
  carried e he kind id hkind := ac.carried_take h hbefore hf (Or.inl he) hkind
  released event he id hid := ac.released_take hbefore hf he hid
  unnamed := ac.unnamed_take h hbefore hf hfresh
  port_waiting a port endpoint hp hep t' task htask hlater := by
    rw [disposed_take]
    rw [get?_take] at htask
    split at htask
    · obtain ⟨d, hd, hrest⟩ : ∃ d, task.teardown? = some d ∧ endpoint ∈ d.rest := by
        cases hd : task.teardown? with
        | none => simp [restOf, hd] at hlater
        | some d => exact ⟨d, rfl, by simpa [restOf, hd] using hlater⟩
      have hd' : result.task.ongoing?.bind Task.teardown? = some d := by rw [htask]; exact hd
      rcases ac.port_taken h hbefore hf hfresh hp hep hd' (List.mem_cons_of_mem _ hrest) with
        hold | ⟨rfl, _⟩
      · exact List.mem_append_left _ hold
      · exact List.mem_append_right _ (by simp [releasedBy, hd'])
    · obtain ⟨hp, hep⟩ :=
        ac.madeFor_old h hbefore hfresh hp hep (Or.inl (mem_waiting htask hlater))
      exact List.mem_append_left _ (ac.port_waiting a port endpoint hp hep t' task htask hlater)
  port_first a port endpoint hp hep earlier later hsplit := by
    rw [disposed_take] at hsplit
    rcases split_append hsplit with ⟨more, hold, _⟩ | ⟨more, rfl, hnew⟩
    · have hm : endpoint ∈ disposed b.log := hold ▸ List.mem_append_right _ List.mem_cons_self
      obtain ⟨hp, hep⟩ := ac.madeFor_old h hbefore hfresh hp hep (Or.inr hm)
      exact ac.port_first a port endpoint hp hep earlier more hold
    · have hnow : endpoint ∈ releasedBy result.task.ongoing? :=
        hnew ▸ List.mem_append_right _ List.mem_cons_self
      obtain ⟨d, hd, rfl⟩ := Option.map_eq_some_iff.mp (Option.mem_toList.mp hnow)
      rcases ac.port_taken h hbefore hf hfresh hp hep hd List.mem_cons_self with hold | ⟨rfl, _⟩
      · exact List.mem_append_left _ hold
      · have ac' := Balanced.take h ac hbefore hf hfresh
        cases (ac'.madeFor_eq hp hep).2

end Take

theorem Accounts.step {b b' : Broadcast} {a : Action} (h : b.Consistent) (ac : b.Accounts)
    (hs : Step b a b') : b'.Accounts := by
  obtain ⟨t, before, reply, calls, result, ht, rfl⟩ := hs.taken h
  exact ac.take h ht.task ht.follows ht.fresh

theorem accounts (actions : List Action) : (run {} actions).Accounts := by
  refine (run_induction (P := fun b => b.Consistent ∧ b.Accounts)
    ⟨consistent_empty, accounts_empty⟩ ?_ actions).2
  rintro b a b' ⟨h, ac⟩ hs
  exact ⟨h.step hs, ac.step h hs⟩

section Results
variable {b : Broadcast} (ac : b.Accounts) {a : Attempt} {kind : ObjectKind} {id : ObjectId}
include ac

theorem Accounts.disposed_of_released {event : Event} (he : event ∈ b.log)
    (hid : event.released? = some id) (hm : id ∈ mediaOf (made b.log)) :
    event.disposed? = some id := by
  refine (ac.released event he id hid).resolve_right ?_
  rintro ⟨kind', hkind', hm'⟩
  exact ac.not_media hm' hkind' hm

theorem Accounts.count_disposed (hm : id ∈ mediaOf (made b.log)) :
    (releases b.log).count id = (disposed b.log).count id := by
  unfold releases disposed
  rw [List.count_filterMap, List.count_filterMap]
  refine List.countP_congr fun event he => ?_
  rw [beq_iff_eq, beq_iff_eq]
  exact ⟨fun hid => ac.disposed_of_released he hid hm, released_of_disposed⟩

theorem Accounts.count_releases (hm : id ∈ mediaOf (made b.log)) : (releases b.log).count id ≤ 1 := by
  rw [ac.count_disposed hm]
  exact List.nodup_iff_count_le_one.mp ac.disposed_nodup id

/-- What was made for a negotiation is stored, or waits for its release, or was released once. -/
theorem Accounts.media_cases (hm : id ∈ mediaOf (made b.log)) :
    (releases b.log).count id = 1 ∨ id ∈ b.coordinator.registry.objects ∨ id ∈ b.waiting := by
  have hplace := hm
  rw [← Multiset.mem_coe, ac.balance] at hplace
  rcases Multiset.mem_add.mp hplace with hplace | hout
  · exact Or.inr (Multiset.mem_add.mp hplace)
  · rw [ac.count_disposed hm]
    exact Or.inl (List.count_eq_one_of_mem ac.disposed_nodup (Multiset.mem_coe.mp hout))

theorem Accounts.named_before (hm : (a, kind, id) ∈ madeFor b.log) (hkind : kind.isMedia) :
    b.log.Pairwise fun event later => event.released? = some id → id ∉ later.names := by
  refine ac.unnamed.imp_of_mem ?_
  intro event later he _ hunnamed hid
  exact hunnamed id (ac.disposed_of_released he hid (media_of_madeFor hm hkind))

theorem Accounts.port_before {port endpoint : ObjectId} (hp : (a, .port, port) ∈ madeFor b.log)
    (hep : (a, .endpoint, endpoint) ∈ madeFor b.log) {earlier later : List Event} {event : Event}
    (hlog : b.log = earlier ++ event :: later) (hid : event.released? = some endpoint) :
    port ∈ releases earlier := by
  have he : event ∈ b.log := hlog ▸ List.mem_append_right _ List.mem_cons_self
  have hd := ac.disposed_of_released he hid (media_of_madeFor hep rfl)
  have hsplit : disposed b.log = disposed earlier ++ endpoint :: disposed later := by
    rw [hlog, disposed, List.filterMap_append, List.filterMap_cons_some hd]
    rfl
  obtain ⟨earlier', hm, hport⟩ := List.mem_filterMap.mp
    (ac.port_first a port endpoint hp hep _ _ hsplit)
  exact List.mem_filterMap.mpr ⟨earlier', hm, released_of_disposed hport⟩

omit ac in
/-- When no task is left, nothing waits for its release. -/
theorem Consistent.not_waiting (h : b.Consistent) (hidle : ∀ t, b.tasks.get? t = none) :
    id ∉ b.waiting := by
  intro hwaits
  obtain ⟨task, ht, _⟩ := Multiset.mem_bind.mp hwaits
  obtain ⟨t, ht⟩ := (Table.mem_contents_iff h.tasks_distinct task).mp ht
  cases (hidle t).symm.trans ht

/-- When no task is left, what was made and not released is what sessions hold that take part. -/
theorem Accounts.kept_iff (h : b.Consistent) (hidle : ∀ t, b.tasks.get? t = none)
    (hkind : kind.isMedia) :
    (∃ a, (a, kind, id) ∈ madeFor b.log) ∧ id ∉ releases b.log ↔
      ∃ e ∈ b.coordinator.registry.entries, e.phase = .ready ∧ e.Holds kind id := by
  constructor
  · rintro ⟨⟨a, hm⟩, hno⟩
    rcases ac.media_cases (media_of_madeFor hm hkind) with hout | hstored | hwaits
    · exact (hno (List.count_pos_iff.mp (by omega))).elim
    · obtain ⟨e, he, hid⟩ := Registry.mem_objects_iff.mp hstored
      obtain ⟨kind', hkind', hheld⟩ := holds_of_mem hid
      obtain ⟨_, rfl⟩ := ac.madeFor_eq ((ac.carried e he kind' id hkind').mp hheld) hm
      refine ⟨e, he, ?_, hheld⟩
      cases hphase : e.phase with
      | ready => rfl
      | pending =>
        obtain ⟨t, _, _, hleads, _⟩ := h.pending_led e he hphase
        cases (hidle t).symm.trans hleads.1
    · exact (h.not_waiting hidle hwaits).elim
  · rintro ⟨e, he, _, hheld⟩
    have hm := (ac.carried e he kind id hkind).mp hheld
    refine ⟨⟨e.attempt, hm⟩, fun hreleased => ?_⟩
    obtain ⟨event, hevent, hid⟩ := List.mem_filterMap.mp hreleased
    have hd := ac.disposed_of_released hevent hid (media_of_madeFor hm hkind)
    exact ac.not_stored (Or.inr (List.mem_filterMap.mpr ⟨event, hevent, hd⟩))
      (Registry.mem_objects he (mem_of_holds hheld))

end Results

/--
An endpoint or a mixer port that was made for a negotiation is released at most once and is not named
afterwards, and the port is released before its endpoint. When no task is left, those that were not
released are those that the sessions hold which take part.
-/
theorem media_released_once (actions : List Action) :
    let b := run {} actions
    (∀ a kind id, kind.isMedia → (a, kind, id) ∈ madeFor b.log →
      (releases b.log).count id ≤ 1 ∧
      b.log.Pairwise fun event later => event.released? = some id → id ∉ later.names) ∧
    (∀ a port endpoint, (a, .port, port) ∈ madeFor b.log →
      (a, .endpoint, endpoint) ∈ madeFor b.log → ∀ earlier event later,
      b.log = earlier ++ event :: later → event.released? = some endpoint →
      port ∈ releases earlier) ∧
    ((∀ t, b.tasks.get? t = none) → ∀ kind id, kind.isMedia →
      ((∃ a, (a, kind, id) ∈ madeFor b.log) ∧ id ∉ releases b.log ↔
        ∃ e ∈ b.coordinator.registry.entries, e.phase = .ready ∧ e.Holds kind id)) := by
  have h := consistent actions
  have ac := accounts actions
  refine ⟨fun a kind id hkind hm => ?_, fun a port endpoint hp hep earlier event later => ?_,
    fun hidle kind id hkind => ?_⟩
  · exact ⟨ac.count_releases (media_of_madeFor hm hkind), ac.named_before hm hkind⟩
  · exact ac.port_before hp hep
  · exact ac.kept_iff h hidle hkind

end Rostrum.Broadcast
