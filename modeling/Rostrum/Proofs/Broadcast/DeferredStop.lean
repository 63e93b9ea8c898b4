import Rostrum.Proofs.Broadcast.SharedMix
import Rostrum.Proofs.Broadcast.Teardowns

/-!
# A stop that comes during a negotiation

A stop that finds a negotiation under way marks the entry and leaves the rest to the negotiation.
`Heeds` says what a step of that negotiation still does: it goes on with its request for the mix if it
does not have the mix yet, it releases what was made for it, or it ends with a fault. So the stop takes
effect at the next step beyond the mix, and each step brings the negotiation nearer to its end.
-/

namespace Rostrum

namespace NegotiationStage

/-- How many steps a negotiation whose session was stopped has left at most. -/
def remaining : NegotiationStage → Nat
  | .prepared => 7
  | .obtainingMix .waiting => 6
  | .obtainingMix .creatingPipeline => 5
  | .obtainingMix (.creatingMixer _) => 4
  | .releasing _ _ _ rest => rest.length + 1
  | _ => 3

theorem remaining_of_isLive {stage : NegotiationStage} (h : stage.isLive) : 3 ≤ stage.remaining := by
  cases stage with
  | obtainingMix request => cases request <;> simp [remaining]
  | releasing => cases h
  | _ => simp [remaining]

end NegotiationStage

theorem Entry.objects_length (e : Entry) : e.objects.length ≤ 2 := by
  obtain ⟨_, _, _, _, endpoint, port, _⟩ := e
  cases endpoint <;> cases port <;> simp [objects]

namespace Broadcast

/-- What a negotiation whose session was stopped may still ask of the engine in a step. -/
inductive Permitted (x : Episode) (n : Negotiation) :
    NegotiationStage → EngineCall SessionId → Prop where
  /-- An endpoint or a port is released that was made for it. -/
  | release {stage kind id} : kind.isMedia → (n.attempt, kind, id) ∈ madeFor x.after.log →
      Permitted x n stage (.release id)
  | pipeline {stage} : stage = .prepared ∧ n.snapshot = none ∨ stage = .obtainingMix .waiting →
      Permitted x n stage .createPipeline
  | mixer {id} : x.action.reply? = some (.ok id) →
      Permitted x n (.obtainingMix .creatingPipeline) (.createMixer ⟨⟨id⟩⟩)
  /-- The mixer could not be made. -/
  | undo {pipeline fault} : x.action.reply? = some (.error fault) →
      Permitted x n (.obtainingMix (.creatingMixer pipeline)) (.release pipeline.id)

/-- What a step of a negotiation does whose session was stopped. -/
inductive Heeds (x : Episode) (n : Negotiation) (stage : NegotiationStage) : Prop where
  | seeks {request} : x.left = some (.negotiation n (.obtainingMix request)) → stage.seeksMix →
      (∀ call, request.call? = some call → Permitted x n stage call) →
      (NegotiationStage.obtainingMix request).remaining < stage.remaining → Heeds x n stage
  | releases {fault e o rest} : x.left = some (.negotiation n (.releasing fault e o rest)) →
      rest.length + 1 < stage.remaining → Heeds x n stage
  | ends {fault} : x.result.task = .done (.negotiated (.error fault)) → Heeds x n stage

/-- A negotiation of an attempt fails in a step. -/
def Episode.Fails (x : Episode) (a : Attempt) : Prop :=
  ∃ n stage fault, x.was = some (.negotiation n stage) ∧ n.attempt = a ∧
    x.result.task = .done (.negotiated (.error fault))

section Heeds
variable {x : Episode} {n : Negotiation} {stage : NegotiationStage}

theorem heeds_of_giveUp {c : Coordinator} {fault : NegotiationFault} {e : Entry}
    {objects : List ObjectId} (hresult : x.result = c.giveUp n fault e objects)
    (hlength : objects.length < stage.remaining) : Heeds x n stage := by
  cases objects with
  | cons o rest =>
    have hleft : x.left = some (.negotiation n (.releasing fault e o rest)) := by
      rw [Episode.left, hresult]
      rfl
    exact .releases hleft hlength
  | nil =>
    have hdone : x.result.task = .done (.negotiated (.error fault)) := by
      rw [hresult]
      rfl
    exact .ends hdone

/-- A negotiation that still seeks the mix waits for the lock, or makes the mix in its place. -/
theorem heeds_of_waits (hx : x.Occurs) (h : x.before.Consistent)
    (hwas : x.was = some (.negotiation n stage)) (hseeks : stage.seeksMix)
    (hsnapshot : stage = .prepared → n.snapshot = none) (request : MixRequest)
    (hleft : x.left = some (.negotiation n (.obtainingMix request))) : Heeds x n stage := by
  have hbefore : x.before.use? x.task = (Task.negotiation n stage).mixUse? := by
    rw [hx.use?_before h, hwas]
    rfl
  have hafter : x.after.use? x.task = some (.request request) := by
    rw [x.use?_after, if_pos rfl, Coordinator.mixUseOf]
    exact congrArg (Option.bind · Task.mixUse?) hleft
  have hturn := hx.mix_turn h
  rw [hbefore, hafter] at hturn
  generalize x.obtained? = ret at hturn
  generalize x.after.coordinator.mix = m' at hturn
  generalize hreply : x.action.reply? = reply at hturn
  suffices hstep : (∀ call, request.call? = some call → Permitted x n stage call) ∧
      (NegotiationStage.obtainingMix request).remaining < stage.remaining from
    .seeks hleft hseeks hstep.1 hstep.2
  cases stage with
  | prepared =>
    refine ⟨fun call hcall => ?_, by cases request <;> simp [NegotiationStage.remaining]⟩
    cases hturn with
    | queues _ hwaits =>
      cases request with
      | waiting => cases hcall
      | _ => cases hwaits
    | begins =>
      cases hcall
      exact .pipeline (Or.inl ⟨rfl, hsnapshot rfl⟩)
  | obtainingMix stage =>
    cases hturn with
    | begins henters =>
      cases henters
      refine ⟨fun call hcall => ?_, by simp [NegotiationStage.remaining]⟩
      cases hcall
      exact .pipeline (Or.inr rfl)
    | pipelineMade =>
      refine ⟨fun call hcall => ?_, by simp [NegotiationStage.remaining]⟩
      cases hcall
      exact .mixer hreply
    | mixerFailed =>
      refine ⟨fun call hcall => ?_, by simp [NegotiationStage.remaining]⟩
      cases hcall
      exact .undo hreply
  | _ => cases hseeks

/-- A negotiation goes on only if its session was not stopped, except for its request for the mix. -/
theorem Episode.Occurs.heeds (hx : x.Occurs) (h : x.before.Consistent)
    (hstopped : ∀ e ∈ x.before.coordinator.registry.entries, e.attempt = n.attempt → e.stopped)
    (hwas : x.was = some (.negotiation n stage)) : Heeds x n stage := by
  have hrunning : x.before.coordinator.registry.running? n.session n.attempt = none :=
    h.wellFormed.running?_of_stopped hstopped
  have hnot : ¬ (x.before.coordinator.registry.running? n.session n.attempt).isSome := by
    rw [hrunning]
    exact Bool.false_ne_true
  cases hlive : stage.isLive with
  | false =>
    cases stage with
    | releasing fault e o rest =>
      obtain ⟨c, _, _, hresult, _⟩ := hx.releases hwas
      exact heeds_of_giveUp hresult (Nat.lt_succ_self _)
    | _ => cases hlive
  | true =>
    have hconducts := hx.conducts h hwas hlive
    generalize hresult : x.result = result at hconducts
    cases hconducts with
    | @waits _ request hseeks hsnapshot =>
      refine heeds_of_waits hx h hwas hseeks hsnapshot request ?_
      rw [Episode.left, hresult]
      rfl
    | goesOn _ hrun => exact (hnot hrun).elim
    | completes _ _ hrun => exact (hnot hrun).elim
    | @givesUp _ fault e =>
      refine heeds_of_giveUp hresult ?_
      have htwo := e.objects_length
      have hthree := NegotiationStage.remaining_of_isLive hlive
      omega

theorem Heeds.left (h : Heeds x n stage) {task : Task} (hleft : x.left = some task) :
    ∃ stage', task = .negotiation n stage' ∧ stage'.remaining < stage.remaining ∧
      (stage'.isLive → stage.seeksMix ∧ stage'.seeksMix) := by
  cases h with
  | seeks hgoes hseeks _ hless =>
    cases hgoes.symm.trans hleft
    exact ⟨_, rfl, hless, fun _ => ⟨hseeks, rfl⟩⟩
  | releases hgoes hless =>
    cases hgoes.symm.trans hleft
    exact ⟨_, rfl, hless, fun hlive => by cases hlive⟩
  | ends hdone =>
    rw [Episode.left, hdone] at hleft
    cases hleft

end Heeds

theorem Episode.Occurs.leads_of_mark {x : Episode} (hx : x.Occurs) (h : x.before.Consistent)
    {a : Attempt} (hmark : Registry.Marked (x.before.coordinator.registry.log x.calls) a) :
    ∃ t n stage, x.after.tasks.get? t = some (.negotiation n stage) ∧ n.attempt = a := by
  have hf := (hx.taken h).follows
  have hstops : ∃ sessions : List SessionId, x.calls = sessions.map .stop := by
    obtain ⟨d, hd, s, _, hcall, _⟩ := hmark
    have hm := Registry.call_of_mem_log hd
    rw [hcall] at hm
    exact hf.move.stops hm
  obtain ⟨sessions, hcalls⟩ := hstops
  rw [hcalls] at hmark
  obtain ⟨e, he, ha, hp⟩ := h.wellFormed.pending_of_marked hmark
  have hafter : x.after.Consistent := h.take (hx.taken h).task hf
  rw [← hcalls, ← hx.registry_after h] at he
  obtain ⟨t, n, stage, hleads, hna⟩ := hafter.pending_led e he hp
  exact ⟨t, n, stage, hleads.1, hna.trans ha⟩

/-! ## A task can go on -/

/-- A task can take a step: it has its turn, or the engine may fail to do what it was asked for. -/
def CanGoOn (b : Broadcast) (t : TaskId) : Prop :=
  (b.step? (.turn t)).isSome ∨ ∀ fault, (b.step? (.reply t (.error fault))).isSome

theorem awaits_of_call?_eq_none {task : Task} (h : task.call? = none) :
    task.awaits = .start ∨ task.awaits = .lock ∧ task.mixUse?.isSome := by
  cases task with
  | negotiation n stage =>
    cases stage with
    | prepared => exact Or.inl rfl
    | obtainingMix request =>
      cases request with
      | waiting => exact Or.inr ⟨rfl, rfl⟩
      | _ => cases h
    | connecting endpoint port =>
      cases hrole : n.role <;> simp [Task.call?, NegotiationStage.call?, hrole] at h
    | _ => cases h
  | shutdown stage =>
    cases stage with
    | stopping => cases h
    | withdrawing stage =>
      cases stage with
      | waiting => exact Or.inr ⟨rfl, rfl⟩
      | _ => cases h
  | mixRequest stage =>
    cases stage with
    | waiting => exact Or.inr ⟨rfl, rfl⟩
    | _ => cases h
  | mixWithdrawal stage =>
    cases stage with
    | waiting => exact Or.inr ⟨rfl, rfl⟩
    | _ => cases h
  | stop | apply => cases h

section CanGoOn
variable {b : Broadcast} {t : TaskId} {task : Task} (ht : b.tasks.get? t = some task)
include ht

theorem canGoOn_of_call (hcall : task.call?.isSome) : b.CanGoOn t := by
  obtain ⟨call, hcall⟩ := Option.isSome_iff_exists.mp hcall
  exact Or.inr fun fault => by simp [step?, reply?, ht, hcall, admits]

theorem canGoOn_of_turn (hturn : b.coordinator.hasTurn t task) : b.CanGoOn t :=
  Or.inl (by simp [step?, turn?, ht, hturn])

/-- A task can take a step, or whoever holds the lock it waits for can. -/
theorem Locked.canGoOn (hl : b.Locked) :
    b.CanGoOn t ∨ ∃ t', b.coordinator.mix.holder = some t' ∧ b.CanGoOn t' := by
  cases hcall : task.call? with
  | some call => exact Or.inl (canGoOn_of_call ht (by rw [hcall]; rfl))
  | none =>
    rcases awaits_of_call?_eq_none hcall with hstart | ⟨_, hwaits⟩
    · exact Or.inl (canGoOn_of_turn ht (by simp [Coordinator.hasTurn, hstart]))
    · have hqueued : t ∈ b.coordinator.mix.queue := by
        rw [hl.mem_queue, use?, ht]
        exact hwaits
      cases hheld : b.coordinator.mix.holder with
      | none => simp [MixCell.queue, hheld, hl.free hheld] at hqueued
      | some t' =>
        refine Or.inr ⟨t', rfl, ?_⟩
        have huse := (hl.mem_queue t').mp (by simp [MixCell.queue, hheld])
        obtain ⟨u, hu⟩ := Option.isSome_iff_exists.mp huse
        obtain ⟨task', ht', _⟩ := Option.bind_eq_some_iff.mp hu
        cases hcall' : task'.call? with
        | some call => exact canGoOn_of_call ht' (by rw [hcall']; rfl)
        | none =>
          refine canGoOn_of_turn ht' ?_
          rcases awaits_of_call?_eq_none hcall' with hawaits | ⟨hawaits, _⟩ <;>
            simp [Coordinator.hasTurn, hawaits, hheld]

end CanGoOn

/-! ## The steps of a run -/

section Runs
variable {actions : List Action} {x : Episode} (hx : x ∈ history {} actions) {n : Negotiation}
  {stage : NegotiationStage} (hwas : x.was = some (.negotiation n stage))
include hx

theorem takesDown_after {t : TaskId} {task : Task} {d : Teardown}
    (ht : x.after.tasks.get? t = some task) (hd : task.teardown? = some d) :
    x.after.TakesDown task d := by
  obtain ⟨_, _, _, _, _, hafter⟩ := occurs_of_mem hx
  rw [hafter] at ht ⊢
  exact takesDown _ t task d ht hd

theorem Heeds.permitted (h : Heeds x n stage) {call : EngineCall SessionId}
    (hcall : x.issues? = some call) : Permitted x n stage call := by
  obtain ⟨task, hleft, hcall⟩ := Option.bind_eq_some_iff.mp hcall
  cases h with
  | seeks hgoes _ hpermitted =>
    cases hgoes.symm.trans hleft
    exact hpermitted call hcall
  | @releases fault e o rest hgoes =>
    cases hgoes.symm.trans hleft
    cases hcall
    have htask : x.after.tasks.get? x.task = some (.negotiation n (.releasing fault e o rest)) := by
      rw [x.get?_after, if_pos rfl, hleft]
    have hdown := takesDown_after hx htask rfl
    obtain ⟨kind, hkind, hheld⟩ := holds_of_mem (hdown.named o List.mem_cons_self)
    have hmade := hdown.made kind o hheld
    rw [hdown.own n _ rfl] at hmade
    exact .release hkind hmade
  | ends hdone =>
    rw [Episode.left, hdone] at hleft
    cases hleft

include hwas

theorem heeds_of_mem (hmarked : x.before.Marked n.attempt) : Heeds x n stage := by
  obtain ⟨hoccurs, earlier, _, _, hbefore, _⟩ := occurs_of_mem hx
  have h : x.before.Consistent := hbefore ▸ consistent earlier
  refine hoccurs.heeds h (fun e he ha => ?_) hwas
  rw [hbefore] at hmarked he
  exact (stopped_of_marked hmarked e he ha).1

/-- What was made for another attempt is not released. -/
theorem Permitted.own {id : ObjectId} (h : Permitted x n stage (.release id)) {a : Attempt}
    {kind : ObjectKind} (hkind : kind.isMedia) (hm : (a, kind, id) ∈ madeFor x.after.log) :
    a = n.attempt := by
  obtain ⟨hoccurs, earlier, _, _, hbefore, hafter⟩ := occurs_of_mem hx
  have ac : x.after.Accounts := hafter ▸ accounts _
  generalize hcall : EngineCall.release id = call at h
  cases h with
  | release _ hm' =>
    cases hcall
    exact (ac.madeFor_eq hm hm').1
  | @undo pipeline =>
    cases hcall
    have hknown : (.pipeline, pipeline.id) ∈ made x.before.log := by
      have ac₀ : x.before.Accounts := hbefore ▸ accounts earlier
      have h₀ : x.before.Consistent := hbefore ▸ consistent earlier
      refine ac₀.task_made x.task _ ((hoccurs.taken h₀).task.trans hwas) ?_
      exact List.mem_append_right _ (List.mem_singleton_self _)
    have hmade : (.pipeline, pipeline.id) ∈ made x.after.log := by
      rw [Episode.after, made_take]
      exact List.mem_append_left _ hknown
    exact (ac.not_media hmade rfl (media_of_madeFor hm hkind)).elim
  | pipeline | mixer => cases hcall

/-- A negotiation whose session has begun anew leaves the new negotiation alone. -/
theorem untouched_of_apart
    (hapart : x.before.coordinator.registry.isCurrent n.session n.attempt = false) :
    x.before.coordinator.registry.Untouched x.after.coordinator.registry := by
  obtain ⟨hoccurs, h, _⟩ := locked_of_mem hx
  rw [hoccurs.registry_after h]
  exact h.wellFormed.untouched_after hapart fun call hcall => Episode.calls_name hwas hcall

end Runs

/-- A marked attempt has its negotiation under way, or the negotiation has failed. -/
theorem underway_or_failed (actions : List Action) :
    ∀ a, (run {} actions).Marked a →
      (∃ t n stage, (run {} actions).tasks.get? t = some (.negotiation n stage) ∧ n.attempt = a) ∨
        ∃ x ∈ history {} actions, x.Fails a := by
  refine later_induction [] (P := fun past b => ∀ a, b.Marked a →
    (∃ t n stage, b.tasks.get? t = some (.negotiation n stage) ∧ n.attempt = a) ∨
      ∃ x ∈ past, x.Fails a) ?_ ?_
  · rintro a ⟨_, hd, _⟩
    cases hd
  · rintro past x hp ⟨earlier, hbefore⟩ hx _ a hmarked
    have h : x.before.Consistent := hbefore ▸ consistent earlier
    by_cases hold : x.before.Marked a
    · rcases hp a hold with ⟨t, n, stage, ht, rfl⟩ | ⟨y, hy, hfails⟩
      · by_cases hne : x.task = t
        · subst hne
          have hwas : x.was = some (.negotiation n stage) := (hx.taken h).task.symm.trans ht
          have hstopped : ∀ e ∈ x.before.coordinator.registry.entries, e.attempt = n.attempt →
              e.stopped := by
            rw [hbefore] at hold ⊢
            exact fun e he ha => (stopped_of_marked hold e he ha).1
          cases hx.heeds h hstopped hwas with
          | seeks hleft | releases hleft =>
            exact Or.inl ⟨x.task, n, _, by rw [x.get?_after, if_pos rfl, hleft], rfl⟩
          | ends hdone => exact Or.inr ⟨x, by simp, n, stage, _, hwas, rfl, hdone⟩
        · exact Or.inl ⟨t, n, stage, by rw [x.get?_after, if_neg hne, ht], rfl⟩
      · exact Or.inr ⟨y, List.mem_append_left _ hy, hfails⟩
    · -- the step marks the attempt
      rw [Marked, x.deeds_after] at hmarked
      exact Or.inl (hx.leads_of_mark h ((Registry.marked_append.mp hmarked).resolve_left hold))

/-- When the negotiation of a marked attempt is over, its entry is gone and all was released once. -/
theorem released_of_marked {actions : List Action} {a : Attempt} (hmarked : (run {} actions).Marked a)
    (hover : ¬ ∃ t n stage, (run {} actions).tasks.get? t = some (.negotiation n stage) ∧
      n.attempt = a) :
    (∀ e ∈ (run {} actions).coordinator.registry.entries, e.attempt ≠ a) ∧
      ∀ kind id, kind.isMedia → (a, kind, id) ∈ madeFor (run {} actions).log →
        (releases (run {} actions).log).count id = 1 := by
  have h := consistent actions
  have ac := accounts actions
  have hgone : ∀ e ∈ (run {} actions).coordinator.registry.entries, e.attempt ≠ a := by
    intro e he ha
    obtain ⟨t, n, stage, hleads, hn⟩ := h.pending_led e he (stopped_of_marked hmarked e he ha).2
    exact hover ⟨t, n, stage, hleads.1, hn.trans ha⟩
  refine ⟨hgone, fun kind id hkind hm => ?_⟩
  rcases ac.media_cases (media_of_madeFor hm hkind) with hone | hstored | hwaits
  · exact hone
  · obtain ⟨e, he, hid⟩ := Registry.mem_objects_iff.mp hstored
    obtain ⟨kind', hkind', hheld⟩ := holds_of_mem hid
    have ha := (ac.madeFor_eq ((ac.carried e he kind' id hkind').mp hheld) hm).1
    exact (hgone e he ha).elim
  · exact (hover (leads_of_waiting hmarked hm hwaits)).elim

/--
From the stop on that marks its entry, a negotiation asks the engine only to release what was made for
it, and to make the mix if it does not have it yet. Each step brings it nearer to its end, which is a
fault; beyond its request for the mix it gives up at once. It releases nothing that was made for another
attempt, and when its session has begun anew it leaves the current entries and the waiting candidates
alone. The entry never becomes ready. As long as the negotiation is under way, it or the holder of the
lock it waits for can take a step; once it is over it has failed, its entry is gone, and what was made
for it was released once.
-/
theorem stop_takes_effect (actions : List Action) :
    (∀ x ∈ history {} actions, ∀ n stage, x.was = some (.negotiation n stage) →
      x.before.Marked n.attempt →
      (∀ call, x.issues? = some call → Permitted x n stage call) ∧
      (∀ a kind id, a ≠ n.attempt → kind.isMedia → (a, kind, id) ∈ madeFor x.after.log →
        x.issues? ≠ some (.release id)) ∧
      (∀ task, x.left = some task → ∃ stage', task = .negotiation n stage' ∧
        stage'.remaining < stage.remaining ∧ (stage'.isLive → stage.seeksMix ∧ stage'.seeksMix)) ∧
      (∀ ending, x.result.task = .done ending → ∃ fault, ending = .negotiated (.error fault)) ∧
      (x.before.coordinator.registry.isCurrent n.session n.attempt = false →
        x.before.coordinator.registry.Untouched x.after.coordinator.registry)) ∧
    ∀ a, (run {} actions).Marked a →
      let b := run {} actions
      (∀ e ∈ b.coordinator.registry.entries, e.attempt = a → e.stopped ∧ e.phase = .pending) ∧
      ((∃ t n stage, b.tasks.get? t = some (.negotiation n stage) ∧ n.attempt = a ∧
          (b.CanGoOn t ∨ ∃ t', b.coordinator.mix.holder = some t' ∧ b.CanGoOn t')) ∨
        (∃ x ∈ history {} actions, x.Fails a) ∧
        (∀ e ∈ b.coordinator.registry.entries, e.attempt ≠ a) ∧
        ∀ kind id, kind.isMedia → (a, kind, id) ∈ madeFor b.log → (releases b.log).count id = 1) := by
  constructor
  · intro x hx n stage hwas hmarked
    have hheeds := heeds_of_mem hx hwas hmarked
    refine ⟨fun call hcall => hheeds.permitted hx hcall, fun a kind id hne hkind hm hissues => ?_,
      fun task hleft => hheeds.left hleft, fun ending hdone => ?_, untouched_of_apart hx hwas⟩
    · exact hne ((hheeds.permitted hx hissues).own hx hwas hkind hm)
    · cases hheeds with
      | seeks hleft | releases hleft =>
        rw [Episode.left, hdone] at hleft
        cases hleft
      | ends hfails =>
        cases hfails.symm.trans hdone
        exact ⟨_, rfl⟩
  · intro a hmarked
    refine ⟨stopped_of_marked hmarked, ?_⟩
    by_cases hunder : ∃ t n stage,
        (run {} actions).tasks.get? t = some (.negotiation n stage) ∧ n.attempt = a
    · obtain ⟨t, n, stage, ht, ha⟩ := hunder
      exact Or.inl ⟨t, n, stage, ht, ha, (locked actions).canGoOn ht⟩
    · exact Or.inr ⟨(underway_or_failed actions a hmarked).resolve_left hunder,
        released_of_marked hmarked hunder⟩

/--
A session is stopped while the engine makes its endpoint, and begins anew at once. The endpoint comes,
and is released by the negotiation that was stopped.
-/
theorem endpoint_on_its_way_released :
    let b := run {} [.request (.prepare ⟨1⟩ .presenter "offer"), .turn ⟨0⟩, .reply ⟨0⟩ (.ok "pipeline"),
      .reply ⟨0⟩ (.ok "mixer"), .request (.stop ⟨1⟩ false), .request (.prepare ⟨1⟩ .presenter "anew"),
      .reply ⟨0⟩ (.ok "endpoint"), .reply ⟨0⟩ (.ok "")]
    b.Marked ⟨1⟩ ∧ (⟨1⟩, .endpoint, ⟨"endpoint"⟩) ∈ madeFor b.log ∧
      (releases b.log).count ⟨"endpoint"⟩ = 1 ∧
      b.coordinator.registry.entry? ⟨1⟩ = some { attempt := ⟨2⟩, role := .presenter } := by
  intro b
  have hmarked : b.Marked ⟨1⟩ :=
    ⟨_, List.mem_of_getElem? (i := 1) rfl, ⟨1⟩, _, rfl, rfl, rfl, rfl⟩
  have hmade : (⟨1⟩, .endpoint, ⟨"endpoint"⟩) ∈ madeFor b.log := by decide
  refine ⟨hmarked, hmade, ?_, rfl⟩
  rcases ((stop_takes_effect _).2 ⟨1⟩ hmarked).2 with ⟨t, n, stage, ht, ha, _⟩ | ⟨_, _, hreleased⟩
  · have htasks : b.tasks = ⟨[(⟨2⟩, .negotiation ⟨⟨1⟩, ⟨2⟩, .presenter, "anew", none⟩ .prepared)]⟩ := rfl
    rw [htasks] at ht
    simp only [Table.get?, Table.find] at ht
    split at ht <;> cases ht
    cases ha
  · exact hreleased .endpoint _ rfl hmade

end Broadcast
end Rostrum
