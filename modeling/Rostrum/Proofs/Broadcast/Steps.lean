import Rostrum.Proofs.Broadcast.Moves

/-!
# The steps of a broadcast

Every step of a task and every request is one of the moves, and what the registry becomes is what the
calls make of it.
-/

namespace Rostrum

open Broadcast

theorem Registry.stopped_cons (r : Registry) (s : SessionId) (left : List SessionId) :
    r.stopped (s :: left) =
      match (r.stop s).1 with
      | .teardown e => if e.objects = [] then s :: (r.next (.stop s)).stopped left else [s]
      | _ => s :: (r.next (.stop s)).stopped left := by
  rw [Registry.stopped, answer_stop]
  cases (r.stop s).1 <;> rfl

namespace Coordinator
variable (c : Coordinator) (s : SessionId)

theorem stop_registry : (c.stop s).2.registry = c.registry.next (.stop s) := by
  rw [Registry.next_stop]
  unfold stop
  cases h : c.registry.stop s with
  | mk action registry =>
    cases action with
    | marked => rfl
    | nothing => rfl
    | teardown e => cases ho : e.objects <;> simp [release, ho]

theorem stop_mix : (c.stop s).2.mix = c.mix := by
  unfold stop
  cases h : c.registry.stop s with
  | mk action registry =>
    cases action with
    | marked => rfl
    | nothing => rfl
    | teardown e => cases ho : e.objects <;> simp [release, ho]

/-- A stop that leaves nothing behind handed out nothing that holds objects. -/
theorem stop_done (h : (c.stop s).1 = .done ()) :
    (∀ e ∈ (Registry.Deed.mk c.registry (.stop s)).handedOut, e.objects = []) ∧
      ∀ left, c.registry.stopped (s :: left) = s :: (c.registry.next (.stop s)).stopped left := by
  rw [Registry.Deed.handedOut_stop]
  simp only [Registry.stopped_cons]
  unfold stop at h
  cases hs : c.registry.stop s with
  | mk action registry =>
    rw [hs] at h
    cases action with
    | marked => simp
    | nothing => simp
    | teardown e => cases ho : e.objects <;> simp_all [release]

theorem stop_ongoing {d : Teardown} (h : (c.stop s).1 = .ongoing d) :
    (Registry.Deed.mk c.registry (.stop s)).handedOut = [d.entry] ∧
      d.entry.objects = d.object :: d.rest ∧ ∀ left, c.registry.stopped (s :: left) = [s] := by
  rw [Registry.Deed.handedOut_stop]
  simp only [Registry.stopped_cons]
  unfold stop at h
  cases hs : c.registry.stop s with
  | mk action registry =>
    rw [hs] at h
    cases action with
    | marked => cases h
    | nothing => cases h
    | teardown e =>
      cases ho : e.objects with
      | nil => simp [release, ho] at h
      | cons o rest =>
        simp only [release, ho, Progress.ongoing.injEq] at h
        subst h
        simp [ho]

end Coordinator

namespace Broadcast

theorem Disposes.cons {before : Option Teardown} {es : List Entry} {after : Option Task} {e : Entry}
    (he : e.objects = []) (hrest : ∀ d ∈ before, d.rest = []) (h : Disposes before es after) :
    Disposes before (e :: es) after := by
  cases h with
  | goesOn hd => simp [hrest _ rfl] at hd
  | @begins _ es x o rest task hb hes ho ht =>
    exact @Disposes.begins _ (e :: es) x o rest task hb (by simpa [he] using hes) ho ht
  | ends hb hes ha => exact .ends hb (by simpa [he] using hes) ha

theorem Disposes.append {before : Option Teardown} {es es' : List Entry} {after : Option Task}
    (he : ∀ e ∈ es', e.objects = []) (hrest : ∀ d ∈ before, d.rest = []) (h : Disposes before es after) :
    Disposes before (es' ++ es) after := by
  induction es' with
  | nil => exact h
  | cons e rest ih =>
    obtain ⟨he, hrest'⟩ := List.forall_mem_cons.mp he
    exact (ih hrest').cons he hrest

theorem shutdownFrom_registry (t : TaskId) (order : List SessionId) (c : Coordinator) :
    (c.shutdownFrom t order).coordinator.registry =
      c.registry.after ((c.registry.stopped order).map .stop) := by
  induction order generalizing c with
  | nil =>
    unfold Coordinator.shutdownFrom Coordinator.shutdownMix
    split <;> rfl
  | cons s left ih =>
    have hreg := c.stop_registry s
    unfold Coordinator.shutdownFrom
    cases h : c.stop s with
    | mk progress c' =>
      rw [h] at hreg
      cases progress with
      | ongoing d =>
        rw [(c.stop_ongoing s (congrArg Prod.fst h)).2.2 left]
        exact hreg
      | done =>
        rw [(c.stop_done s (congrArg Prod.fst h)).2 left]
        have hnext := ih c'
        rw [hreg] at hnext
        exact hnext

theorem shutdownFrom_disposes {before : Option Teardown} (hrest : ∀ d ∈ before, d.rest = [])
    (t : TaskId) (order : List SessionId) (c : Coordinator) :
    Disposes before
      (Registry.handedOut (c.registry.log ((c.registry.stopped order).map .stop)))
      (c.shutdownFrom t order).task.ongoing? := by
  induction order generalizing c with
  | nil =>
    unfold Coordinator.shutdownFrom Coordinator.shutdownMix
    split <;> exact .ends hrest (by simp [Registry.handedOut, Registry.log, Registry.stopped])
      (by simp [Progress.ongoing?, Task.isMix])
  | cons s left ih =>
    have hreg := c.stop_registry s
    unfold Coordinator.shutdownFrom
    cases h : c.stop s with
    | mk progress c' =>
      rw [h] at hreg
      cases progress with
      | ongoing d =>
        obtain ⟨hout, hobjects, hstopped⟩ := c.stop_ongoing s (congrArg Prod.fst h)
        rw [hstopped left]
        rw [List.map_singleton, Registry.handedOut_log_singleton, hout, ← List.nil_append [d.entry]]
        exact .begins hrest (by simp) hobjects rfl
      | done =>
        -- nothing was left to release, so the next session is stopped in the same step
        obtain ⟨hout, hstopped⟩ := c.stop_done s (congrArg Prod.fst h)
        rw [hstopped left]
        have hnext := ih c'
        rw [hreg] at hnext
        exact hnext.append hout hrest

theorem shutdownFrom_held (t : TaskId) (order : List SessionId) (c : Coordinator) :
    held (c.shutdownFrom t order).coordinator.mix (c.shutdownFrom t order).task.ongoing? ⊆
      c.mix.objects := by
  induction order generalizing c with
  | nil =>
    have hmix := c.mix.withdraw_objects t
    unfold Coordinator.shutdownFrom Coordinator.shutdownMix
    cases h : c.mix.withdraw t with
    | mk progress mix =>
      rw [h] at hmix
      cases progress <;>
        simpa [held, Progress.ongoing?, Task.mixObjects, MixCell.withdrawalObjects] using hmix
  | cons s left ih =>
    have hmix := c.stop_mix s
    unfold Coordinator.shutdownFrom
    cases h : c.stop s with
    | mk progress c' =>
      rw [h] at hmix
      cases progress with
      | ongoing d => simp [held, Progress.ongoing?, Task.mixObjects, ← hmix]
      | done => exact hmix ▸ ih c'

section Others
variable {c c' : Coordinator} {task : Task} {reply : Option Reply}

theorem held_of_mix_eq {m m' : MixCell} (h : m' = m) {before after : Option Task}
    (hafter : ∀ task ∈ after, task.mixObjects = []) (more : List (ObjectKind × ObjectId)) :
    held m' after ⊆ held m before ++ more := by
  intro o ho
  rcases List.mem_append.mp ho with ho | ho
  · exact mix_subset_held _ _ _ (h ▸ ho)
  · obtain ⟨task, ht, ho⟩ := List.mem_flatMap.mp ho
    rw [hafter task (Option.mem_toList.mp ht)] at ho
    cases ho

theorem release_spec (d : Teardown) (hreg : c'.registry = c.registry) (hmix : c'.mix = c.mix) :
    (c'.release d.entry d.rest).2.registry = c.registry ∧
      (c'.release d.entry d.rest).2.mix = c.mix := by
  unfold Coordinator.release
  split <;> simp [hreg, hmix]

theorem giveUp_follows {n : Negotiation} {fault : NegotiationFault} {e : Entry} {o : ObjectId}
    {rest : List ObjectId} (hreg : c'.registry = c.registry) (hmix : c'.mix = c.mix) :
    Follows c (some (.negotiation n (.releasing fault e o rest))) reply []
      (c'.giveUp n fault e rest) where
  registry := (c'.giveUp_registry n fault e rest).trans hreg
  move := by
    refine .disposes_nothing (by simp [Task.live?, NegotiationStage.isLive]) ?_
    rw [Coordinator.giveUp_ongoing?]
    cases rest with
    | nil => exact .ends (by simp [Task.teardown?]) (by simp) (by simp)
    | cons o' rest => exact .goesOn (d := ⟨e, o, o' :: rest⟩) rfl rfl
  mix := by
    rw [Coordinator.giveUp_mix, Coordinator.giveUp_ongoing?, hmix]
    cases rest with
    | nil => simp [held]
    | cons => simp [held, Task.mixObjects, NegotiationStage.mixObjects]

theorem stop_follows {s : SessionId} {leaving : Bool} {d : Teardown}
    (hreg : c'.registry = c.registry) (hmix : c'.mix = c.mix) :
    Follows c (some (.stop s leaving d)) reply []
      (Coordinator.stopTask s leaving (c'.release d.entry d.rest)) := by
  obtain ⟨hreg', hmix'⟩ := release_spec d hreg hmix
  cases hrest : d.rest with
  | nil =>
    rw [hrest] at hreg' hmix'
    refine ⟨hreg', .disposes_nothing (by simp [Task.live?]) ?_, ?_⟩
    · exact .ends (by simpa [Task.teardown?] using hrest) (by simp)
        (by simp [Coordinator.release, Coordinator.stopTask, Progress.ongoing?])
    · exact held_of_mix_eq hmix' (by simp [Coordinator.release, Coordinator.stopTask, Progress.ongoing?]) _
  | cons o rest =>
    rw [hrest] at hreg' hmix'
    refine ⟨hreg', .disposes_nothing (by simp [Task.live?]) (.goesOn hrest rfl), ?_⟩
    exact held_of_mix_eq hmix'
      (by simp [Coordinator.release, Coordinator.stopTask, Progress.ongoing?, Task.mixObjects]) _

theorem shutdown_follows {d : Teardown} {left : List SessionId} {t : TaskId} {reply : Reply}
    (hreg : c'.registry = c.registry) (hmix : c'.mix = c.mix) :
    Follows c (some (.shutdown (.stopping d left))) (some reply)
      (if d.rest = [] then (c.registry.stopped left).map .stop else [])
      (match c'.release d.entry d.rest with
        | (.ongoing d, c) => ⟨c, [], .ongoing (.shutdown (.stopping d left))⟩
        | (.done (), c) => c.shutdownFrom t left) := by
  obtain ⟨hreg', hmix'⟩ := release_spec d hreg hmix
  cases hrest : d.rest with
  | nil =>
    rw [hrest] at hreg' hmix'
    rw [if_pos rfl]
    change Follows c _ _ _ ((c'.settle d.entry).shutdownFrom t left)
    refine ⟨?_, .disposes (by simp [Task.live?]) ?_, ?_⟩
    · have h := shutdownFrom_registry t left (c'.settle d.entry)
      rwa [Coordinator.settle_registry, hreg] at h
    · have hnone : ∀ x ∈ some d, x.rest = [] := by simpa using hrest
      have h := shutdownFrom_disposes hnone t left (c'.settle d.entry)
      rwa [Coordinator.settle_registry, hreg] at h
    · have h := shutdownFrom_held t left (c'.settle d.entry)
      rw [Coordinator.settle_mix, hmix] at h
      exact fun o ho => mix_subset_held _ _ _ (h ho)
  | cons o rest =>
    rw [hrest] at hreg' hmix'
    rw [if_neg (by simp)]
    refine ⟨hreg', .disposes_nothing (by simp [Task.live?]) (.goesOn hrest rfl), ?_⟩
    exact held_of_mix_eq hmix' (by simp [Coordinator.release, Progress.ongoing?, Task.mixObjects]) _

/-- A step that works on the mix alone. -/
theorem mix_follows {before : Option Task} {result : StepResult} {known : List (ObjectKind × ObjectId)}
    (hbefore : ∀ task ∈ before, task.isMix) (hreg : result.coordinator.registry = c.registry)
    (hresult : ∀ task ∈ result.task.ongoing?, task.isMix ∧ task.mixObjects = known)
    (hmix : result.coordinator.mix.objects ++ known ⊆ held c.mix before ++ brought before reply) :
    Follows c before reply [] result := by
  have hnone : ∀ task ∈ before, task.live? = none ∧ task.teardown? = none := by
    intro task ht
    have htask := hbefore task ht
    unfold Task.isMix at htask
    split at htask <;> first | exact ⟨rfl, rfl⟩ | cases htask
  refine ⟨hreg, .disposes_nothing (fun task ht => (hnone task ht).1) ?_, ?_⟩
  · refine .ends ?_ (by simp) (fun task ht => (hresult task ht).1)
    intro d hd
    obtain ⟨task, ht, htd⟩ := Option.bind_eq_some_iff.mp hd
    rw [(hnone task ht).2] at htd
    cases htd
  · intro o ho
    refine hmix (List.mem_append.mpr ((List.mem_append.mp ho).imp_right ?_))
    intro ho
    obtain ⟨task, ht, ho⟩ := List.mem_flatMap.mp ho
    rwa [(hresult task (Option.mem_toList.mp ht)).2] at ho

theorem mixRequested_follows {before : Option Task} {step : MixCell.RequestStep}
    (hbefore : ∀ task ∈ before, task.isMix) (hreg : c'.registry = c.registry)
    (hstep : step.2.objects ++ MixCell.requestObjects step.1 ⊆
      held c.mix before ++ brought before reply) :
    Follows c before reply [] (c'.mixRequested step) := by
  obtain ⟨stage | result, mix⟩ := step
  · exact mix_follows hbefore hreg
      (by simp [Coordinator.mixRequested, Progress.ongoing?, Task.isMix, Task.mixObjects, MixCell.requestObjects]) hstep
  · exact mix_follows hbefore hreg (by simp [Coordinator.mixRequested, Progress.ongoing?]) hstep

theorem mixWithdrawn_follows {before : Option Task} {step : MixCell.WithdrawalStep}
    (hbefore : ∀ task ∈ before, task.isMix) (hreg : c'.registry = c.registry)
    (hstep : step.2.objects ++ MixCell.withdrawalObjects step.1 ⊆
      held c.mix before ++ brought before reply) :
    Follows c before reply [] (c'.mixWithdrawn step) := by
  obtain ⟨stage | result, mix⟩ := step
  · exact mix_follows hbefore hreg
      (by simp [Coordinator.mixWithdrawn, Progress.ongoing?, Task.isMix, Task.mixObjects, MixCell.withdrawalObjects]) hstep
  · exact mix_follows hbefore hreg (by simp [Coordinator.mixWithdrawn, Progress.ongoing?]) hstep

theorem shutdownWithdrawn_follows {before : Option Task} {step : MixCell.WithdrawalStep}
    (hbefore : ∀ task ∈ before, task.isMix) (hreg : c'.registry = c.registry)
    (hstep : step.2.objects ++ MixCell.withdrawalObjects step.1 ⊆
      held c.mix before ++ brought before reply) :
    Follows c before reply [] (c'.shutdownWithdrawn step) := by
  obtain ⟨stage | result, mix⟩ := step
  · exact mix_follows hbefore hreg
      (by simp [Coordinator.shutdownWithdrawn, Progress.ongoing?, Task.isMix, Task.mixObjects, MixCell.withdrawalObjects]) hstep
  · exact mix_follows hbefore hreg (by simp [Coordinator.shutdownWithdrawn, Progress.ongoing?]) hstep

theorem resumeWithdrawal_held {m : MixCell} {stage : MixWithdrawal} {task : Task}
    (h : task.mixObjects = stage.objects) (more : List (ObjectKind × ObjectId)) :
    (m.resumeWithdrawal stage).2.objects ++ MixCell.withdrawalObjects (m.resumeWithdrawal stage).1 ⊆
      held m (some task) ++ more := by
  intro o ho
  have hknown := m.resumeWithdrawal_objects stage ho
  refine List.mem_append_left _ ?_
  simpa [held, h] using hknown

theorem taskCalls_of_live (c : Coordinator) {n : Negotiation} {stage : NegotiationStage}
    (h : stage.isLive) (reply : Option Reply) (result : StepResult) :
    taskCalls c (.negotiation n stage) reply result = negotiationCalls n stage reply result := by
  simp [taskCalls, h]

/-- The step of a task after a reply. -/
theorem stepReply_follows (c : Coordinator) (t : TaskId) {task : Task} (reply : Reply)
    (hcall : task.call?.isSome) :
    Follows c (some task) (some reply) (taskCalls c task (some reply) (c.stepReply t task reply))
      (c.stepReply t task reply) := by
  have hreg := c.countRelease_registry task reply
  have hmix := c.countRelease_mix task reply
  cases task with
  | negotiation n stage =>
    cases hlive : stage.isLive with
    | true =>
      rw [taskCalls_of_live c hlive]
      exact resume_negotiates hreg hmix hlive hcall reply
    | false =>
      cases stage with
      | releasing fault e o rest => exact giveUp_follows hreg hmix
      | _ => cases hlive
  | stop s leaving d => exact stop_follows hreg hmix
  | apply s endpoint candidate =>
    refine ⟨hreg, .disposes_nothing (by simp [Task.live?]) ?_, ?_⟩
    · exact .ends (by simp [Task.teardown?]) (by simp)
        (by simp [Coordinator.stepReply, Progress.ongoing?])
    · exact held_of_mix_eq hmix (by simp [Coordinator.stepReply, Progress.ongoing?]) _
  | shutdown stage =>
    cases stage with
    | stopping d left => exact shutdown_follows hreg hmix
    | withdrawing stage =>
      exact shutdownWithdrawn_follows (by simp [Task.isMix]) hreg (hmix ▸ resumeWithdrawal_held rfl _)
  | mixRequest stage =>
    refine mixRequested_follows (by simp [Task.isMix]) hreg ?_
    have hknown := (c.countRelease (.mixRequest stage) reply).mix.resumeRequest_objects stage reply
    intro o ho
    simpa [held, Task.mixObjects, brought, hmix] using hknown ho
  | mixWithdrawal stage =>
    exact mixWithdrawn_follows (by simp [Task.isMix]) hreg (hmix ▸ resumeWithdrawal_held rfl _)

/-- A task that has its turn waits for no reply. -/
theorem call?_of_hasTurn {c : Coordinator} {t : TaskId} {task : Task} (h : c.hasTurn t task) :
    task.call? = none := by
  unfold Coordinator.hasTurn at h
  cases hcall : task.call? with
  | none => rfl
  | some call =>
    have hawaits : task.awaits = .reply call := by
      unfold Task.awaits
      split
      · cases hcall
      · rw [hcall]
        rfl
    rw [hawaits] at h
    cases h

/-- The step of a task that starts or was handed the lock. -/
theorem stepTurn_follows (c : Coordinator) {t : TaskId} {task : Task} (hturn : c.hasTurn t task) :
    Follows c (some task) none (taskCalls c task none (c.stepTurn t task)) (c.stepTurn t task) := by
  cases task with
  | negotiation n stage =>
    cases stage with
    | prepared => exact start_negotiates t n
    | obtainingMix request =>
      cases request with
      | waiting =>
        apply afterMix_negotiates (by rfl) _ rfl
        exact fun o ho => mix_subset_held _ _ _ (c.mix.enterRequest_objects ho)
      | _ => cases hturn
    | connecting =>
      unfold Coordinator.hasTurn Task.awaits at hturn
      cases hrole : n.role <;> simp [Task.call?, NegotiationStage.call?, hrole, Await.ofCall?] at hturn
    | _ => cases hturn
  | shutdown stage =>
    cases stage with
    | stopping => cases hturn
    | withdrawing stage =>
      cases stage with
      | waiting =>
        refine shutdownWithdrawn_follows (by simp [Task.isMix]) rfl ?_
        exact fun o ho => mix_subset_held _ _ _ (c.mix.enterWithdrawal_objects ho)
      | _ => cases hturn
  | mixRequest stage =>
    cases stage with
    | waiting =>
      refine mixRequested_follows (by simp [Task.isMix]) rfl ?_
      exact fun o ho => mix_subset_held _ _ _ (c.mix.enterRequest_objects ho)
    | _ => cases hturn
  | mixWithdrawal stage =>
    cases stage with
    | waiting =>
      refine mixWithdrawn_follows (by simp [Task.isMix]) rfl ?_
      exact fun o ho => mix_subset_held _ _ _ (c.mix.enterWithdrawal_objects ho)
    | _ => cases hturn
  | _ => cases hturn

theorem snapshot_objects {s : SessionId} {role : Role} {snapshot : Option SharedMix}
    (h : c.snapshot s role = .ok snapshot) :
    snapshot.toList.flatMap SharedMix.objects ⊆ c.mix.objects := by
  cases role with
  | presenter =>
    cases h
    simp
  | viewer =>
    unfold Coordinator.snapshot at h
    dsimp only at h
    split at h
    · cases h
    · split at h
      · rename_i mix hmix
        cases h
        simp [MixCell.objects, hmix]
      · cases h

theorem prepare_follows (c : Coordinator) (t : TaskId) (s : SessionId) (role : Role) (offer : String) :
    Follows c none none (requestCalls c (.prepare s role offer)) (serve c t (.prepare s role offer)) := by
  cases hsnap : c.snapshot s role with
  | error fault =>
    have hreserve : c.reserve s role offer = .error fault := by
      simp only [Coordinator.reserve, hsnap]
      rfl
    simp only [serve, requestCalls, Coordinator.prepare, hsnap, hreserve]
    refine ⟨c.reject_registry fault s role, .disposes_nothing (by simp) ?_, ?_⟩
    · exact .ends (by simp) (by simp) (by simp [Progress.ongoing?])
    · exact held_of_mix_eq (c.reject_mix fault s role) (by simp [Progress.ongoing?]) _
  | ok snapshot =>
    cases hreg : c.registry.register s role with
    | error fault =>
      have hreserve : c.reserve s role offer = .error fault := by
        simp only [Coordinator.reserve, hsnap, hreg]
        rfl
      have hnext : c.registry.next (.register s role) = c.registry := by
        simp only [Registry.next, Registry.perform, hreg]
      have hanswer : c.registry.answer (.register s role) = .refused fault := by
        simp only [Registry.answer, Registry.perform, hreg]
      simp only [serve, requestCalls, Coordinator.prepare, hsnap, hreserve]
      refine ⟨?_, .refused hanswer, ?_⟩
      · exact (c.reject_registry fault s role).trans hnext.symm
      · exact held_of_mix_eq (c.reject_mix fault s role) (by simp [Progress.ongoing?]) _
    | ok entered =>
      obtain ⟨a, registry⟩ := entered
      have hreserve : c.reserve s role offer =
          .ok (⟨s, a, role, offer, snapshot⟩, { c with registry := registry }) := by
        simp only [Coordinator.reserve, hsnap, hreg]
        rfl
      have hnext : c.registry.next (.register s role) = registry := by
        simp only [Registry.next, Registry.perform, hreg]
      have hanswer : c.registry.answer (.register s role) = .entered a := by
        simp only [Registry.answer, Registry.perform, hreg]
      simp only [serve, requestCalls, Coordinator.prepare, hsnap, hreserve]
      refine ⟨hnext.symm, .enters hanswer, ?_⟩
      have hknown := snapshot_objects hsnap
      intro o ho
      refine mix_subset_held _ _ _ ?_
      rcases List.mem_append.mp ho with ho | ho
      · exact ho
      · refine hknown ?_
        simpa [Progress.ongoing?, Task.mixObjects, NegotiationStage.mixObjects] using ho

theorem submit_follows (c : Coordinator) (t : TaskId) (s : SessionId) (candidate : Candidate) :
    Follows c none none (requestCalls c (.submit s candidate)) (serve c t (.submit s candidate)) := by
  have hnext := c.registry.next_submit s candidate
  have hanswer := c.registry.answer_submit s candidate
  rcases c.registry.submit_cases s candidate with ⟨_, endpoint, _, _, _, _, h⟩ | ⟨_, h⟩
  · rw [h] at hnext hanswer
    simp only [serve, requestCalls, Coordinator.submit, h]
    refine ⟨hnext.symm, .applies hanswer, held_of_mix_eq rfl ?_ _⟩
    simp [Progress.ongoing?, Task.mixObjects]
  · rw [h] at hnext hanswer
    simp only [serve, requestCalls, Coordinator.submit, h]
    exact ⟨hnext.symm, .buffers hanswer, held_of_mix_eq rfl (by simp [Progress.ongoing?]) _⟩

theorem stopTask_follows (c : Coordinator) (t : TaskId) (s : SessionId) (leaving : Bool) :
    Follows c none none (requestCalls c (.stop s leaving)) (serve c t (.stop s leaving)) := by
  have hreg := c.stop_registry s
  have hmix := c.stop_mix s
  cases h : c.stop s with
  | mk progress c' =>
    rw [h] at hreg hmix
    simp only [serve, requestCalls, h]
    cases progress with
    | ongoing d =>
      obtain ⟨hout, hobjects, _⟩ := c.stop_ongoing s (congrArg Prod.fst h)
      refine ⟨hreg, .disposes_stopped (by simp) ?_, ?_⟩
      · rw [Registry.handedOut_log_singleton, hout]
        exact .first hobjects rfl
      · exact held_of_mix_eq hmix
          (by simp [Coordinator.stopTask, Progress.ongoing?, Task.mixObjects]) _
    | done =>
      refine ⟨hreg, .disposes_stopped (by simp) ?_, ?_⟩
      · rw [Registry.handedOut_log_singleton]
        exact .ends (by simp) (c.stop_done s (congrArg Prod.fst h)).1
          (by simp [Coordinator.stopTask, Progress.ongoing?])
      · exact held_of_mix_eq hmix (by simp [Coordinator.stopTask, Progress.ongoing?]) _

/-- The first step of a request. -/
theorem serve_follows (c : Coordinator) (t : TaskId) (q : Request) :
    Follows c none none (requestCalls c q) (serve c t q) := by
  cases q with
  | prepare s role offer => exact prepare_follows c t s role offer
  | stop s leaving => exact stopTask_follows c t s leaving
  | submit s candidate => exact submit_follows c t s candidate
  | shutdown order =>
    refine ⟨shutdownFrom_registry t order c, .disposes (by simp) ?_, ?_⟩
    · exact shutdownFrom_disposes (by simp) t order c
    · exact fun o ho => mix_subset_held _ _ _ (shutdownFrom_held t order c ho)
  | requestMix =>
    refine mixRequested_follows (by simp) rfl ?_
    exact fun o ho => mix_subset_held _ _ _ (c.mix.request_objects t ho)
  | withdrawMix =>
    refine mixWithdrawn_follows (by simp) rfl ?_
    exact fun o ho => mix_subset_held _ _ _ (c.mix.withdraw_objects t ho)

/-- What an action does: a task takes a step, or a request takes its first one. -/
inductive Step (b : Broadcast) : Action → Broadcast → Prop where
  | request {q} : Follows b.coordinator none none (requestCalls b.coordinator q)
        (serve b.coordinator ⟨b.nextTask⟩ q) →
      Step b (.request q)
        (b.take ⟨b.nextTask⟩ none none (requestCalls b.coordinator q)
          (serve b.coordinator ⟨b.nextTask⟩ q))
  | turn {t task calls result} : b.tasks.get? t = some task → task.call? = none →
      Follows b.coordinator (some task) none calls result →
      Step b (.turn t) (b.take t (some task) none calls result)
  | reply {t task call reply calls result} : b.tasks.get? t = some task → task.call? = some call →
      admits b.log call reply → Follows b.coordinator (some task) (some reply) calls result →
      Step b (.reply t reply) (b.take t (some task) (some reply) calls result)

section Actions
variable {b b' : Broadcast}

theorem request?_cases {q : Request} (h : b.request? q = some b') :
    (∀ order, q = .shutdown order → order.isPerm b.coordinator.registry.sessions) ∧
      b' = b.take ⟨b.nextTask⟩ none none (requestCalls b.coordinator q)
        (serve b.coordinator ⟨b.nextTask⟩ q) := by
  simp only [request?] at h
  split at h
  · split at h
    · rename_i order hperm
      refine ⟨?_, (Option.some.inj h).symm⟩
      rintro _ ⟨⟩
      exact hperm
    · cases h
  · rename_i hno
    exact ⟨fun order hq => (hno order hq).elim, (Option.some.inj h).symm⟩

theorem turn?_cases {t : TaskId} (h : b.turn? t = some b') :
    ∃ task, b.tasks.get? t = some task ∧ b.coordinator.hasTurn t task ∧
      b' = b.take t (some task) none
        (taskCalls b.coordinator task none (b.coordinator.stepTurn t task))
        (b.coordinator.stepTurn t task) := by
  simp only [turn?] at h
  split at h
  · rename_i task ht
    split at h
    · rename_i hturn
      exact ⟨task, ht, hturn, (Option.some.inj h).symm⟩
    · cases h
  · cases h

theorem reply?_cases {t : TaskId} {reply : Reply} (h : b.reply? t reply = some b') :
    ∃ task call, b.tasks.get? t = some task ∧ task.call? = some call ∧ admits b.log call reply ∧
      b' = b.take t (some task) (some reply)
        (taskCalls b.coordinator task (some reply) (b.coordinator.stepReply t task reply))
        (b.coordinator.stepReply t task reply) := by
  simp only [reply?] at h
  split at h
  · rename_i task ht
    split at h
    · rename_i call hcall
      split at h
      · rename_i hadmits
        exact ⟨task, call, ht, hcall, hadmits, (Option.some.inj h).symm⟩
      · cases h
    · cases h
  · cases h

end Actions

theorem step?_spec {b b' : Broadcast} {a : Action} (h : b.step? a = some b') : Step b a b' := by
  cases a with
  | request q =>
    obtain ⟨_, rfl⟩ := request?_cases h
    exact .request (serve_follows _ _ q)
  | turn t =>
    obtain ⟨task, ht, hturn, rfl⟩ := turn?_cases h
    exact .turn ht (call?_of_hasTurn hturn) (stepTurn_follows _ hturn)
  | reply t reply =>
    obtain ⟨task, call, ht, hcall, hadmits, rfl⟩ := reply?_cases h
    refine .reply ht hcall hadmits (stepReply_follows _ t reply ?_)
    rw [hcall]
    rfl

end Others
end Broadcast

end Rostrum
