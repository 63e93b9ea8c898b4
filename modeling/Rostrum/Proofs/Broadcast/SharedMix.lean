import Rostrum.Proofs.Broadcast.MixLedger

/-!
# One mix at a time

Whatever requests and withdrawals of the shared mix come together, and whichever calls of the engine
fail, a pipeline is made only while no mix is published, a published mix is whole and untouched, and it
is what every request obtains until a withdrawal takes it out.
-/

namespace Rostrum

open Broadcast

namespace MixCell.Turn
variable {m m' : MixCell} {t : TaskId} {use use' : Option MixUse} {reply : Option Reply}
  {ret : Option (Except EngineFault SharedMix)} (h : m.Turn t use reply use' ret m')
include h

/-- A step publishes a mix, or takes the published mix out, or leaves it as it is. -/
theorem published_cases : m'.published = m.published ∨ m'.published = none ∨
    ∃ pipeline id, use = some (.request (.creatingMixer pipeline)) ∧ reply = some (.ok id) ∧
      m'.published = some ⟨pipeline, ⟨⟨id⟩⟩⟩ := by
  cases h with
  | idle | queues | pipelineMade | mixerFailed | mixerReleased => exact Or.inl rfl
  | begins henters => exact Or.inl (by cases henters <;> rfl)
  | finds henters => exact Or.inl (by cases henters <;> rw [unlock_published])
  | pipelineFailed | undone | pipelineReleased => exact Or.inl (unlock_published _)
  | mixerMade => exact Or.inr (Or.inr ⟨_, _, rfl, rfl, unlock_published _⟩)
  | takesOut => exact Or.inr (Or.inl rfl)
  | takesNothing => exact Or.inr (Or.inl (unlock_published _))

/-- A task comes to make a mixer when its pipeline was made. -/
theorem pipeline_of_creatingMixer {pipeline : Pipeline}
    (hafter : use' = some (.request (.creatingMixer pipeline))) :
    use = some (.request .creatingPipeline) ∧ reply = some (.ok pipeline.id.name) := by
  cases h with
  | pipelineMade =>
    cases hafter
    exact ⟨rfl, rfl⟩
  | queues _ hwaits =>
    cases hafter
    cases hwaits
  | _ => cases hafter

theorem mixer_of_releasingPipeline {mix : SharedMix}
    (hafter : use' = some (.withdrawal (.releasingPipeline mix))) :
    use = some (.withdrawal (.releasingMixer mix)) := by
  cases h with
  | mixerReleased =>
    cases hafter
    rfl
  | queues _ hwaits =>
    cases hafter
    cases hwaits
  | _ => cases hafter

/-- Who begins to make a pipeline sees no mix, and publishes none. -/
theorem unpublished_of_creatingPipeline (hagree : m.made = m.published)
    (hafter : use' = some (.request .creatingPipeline)) : m.published = none ∧ m'.published = none := by
  cases h with
  | begins henters hmade =>
    have hnone := hagree.symm.trans hmade
    refine ⟨hnone, ?_⟩
    cases henters <;> exact hnone
  | queues _ hwaits =>
    cases hafter
    cases hwaits
  | _ => cases hafter

theorem published_of_ret (hagree : m.made = m.published) {mix : SharedMix}
    (hret : ret = some (.ok mix)) : m'.published = some mix := by
  cases h with
  | finds henters hmade =>
    cases hret
    rw [unlock_published]
    cases henters <;> exact hagree.symm.trans hmade
  | mixerMade =>
    cases hret
    exact unlock_published _
  | _ => cases hret

/-- A published mix stays, nothing else is made or obtained, unless a withdrawal takes it out. -/
theorem keeps_published (hagree : m.made = m.published)
    (hinside : ∀ u, use = some u → u.waits = false → m.holder = some t ∧ m.made = none)
    {mix : SharedMix} (hp : m.published = some mix) :
    use' = some (.withdrawal (.releasingMixer mix)) ∨
      m'.published = some mix ∧ use' ≠ some (.request .creatingPipeline) ∧
        ∀ mix', ret = some (.ok mix') → mix' = mix := by
  have hmade : m.made = some mix := hagree.trans hp
  have hbusy : ∀ u, use = some u → u.waits = false → False := by
    intro u hu hwaits
    rw [(hinside u hu hwaits).2] at hmade
    cases hmade
  have hcreates : use' ≠ some (.request .creatingPipeline) := by
    intro hafter
    rw [(h.unpublished_of_creatingPipeline hagree hafter).1] at hp
    cases hp
  rcases h.published_cases with hsame | hnone | ⟨pipeline, id, huse, _⟩
  · refine Or.inr ⟨hsame.trans hp, hcreates, fun mix' hret => ?_⟩
    have hpublished := h.published_of_ret hagree hret
    rw [hsame, hp] at hpublished
    exact (Option.some.inj hpublished).symm
  · cases h with
    | idle | queues | pipelineMade | mixerFailed | mixerReleased =>
      rw [hp] at hnone
      cases hnone
    | begins _ hmade' | takesNothing _ hmade' =>
      rw [hmade] at hmade'
      cases hmade'
    | finds henters _ =>
      rw [unlock_published] at hnone
      cases henters <;> rw [hp] at hnone <;> cases hnone
    | pipelineFailed | undone | pipelineReleased | mixerMade => exact (hbusy _ rfl rfl).elim
    | takesOut _ hmade' =>
      rw [hmade] at hmade'
      cases hmade'
      exact Or.inl rfl
  · exact (hbusy _ huse rfl).elim

end MixCell.Turn

namespace Broadcast

/-- A call to make an object has succeeded. -/
def Created (log : List Event) (call : EngineCall SessionId) (id : ObjectId) : Prop :=
  ∃ t task, .replied t task (.ok id.name) ∈ log ∧ task.call? = some call

/-- The call that is issued in an episode. -/
def Episode.issues? (x : Episode) : Option (EngineCall SessionId) := x.left.bind Task.call?

theorem Created.more {log more : List Event} {call : EngineCall SessionId} {id : ObjectId}
    (h : Created log call id) : Created (log ++ more) call id := by
  obtain ⟨t, task, hm, hcall⟩ := h
  exact ⟨t, task, List.mem_append_left _ hm, hcall⟩

/-- What the log shows of the tasks that run and of the mix that is published. -/
structure Recorded (b : Broadcast) : Prop where
  issued : ∀ t task, b.tasks.get? t = some task → task.call?.isSome → .issued t task ∈ b.log
  pipeline_created : ∀ t pipeline, b.use? t = some (.request (.creatingMixer pipeline)) →
    Created b.log .createPipeline pipeline.id
  published_created : ∀ mix, b.coordinator.mix.published = some mix →
    Created b.log .createPipeline mix.pipeline.id ∧ Created b.log (.createMixer mix.pipeline) mix.mixer.id

theorem recorded_empty : Recorded {} where
  issued _ _ h := by cases h
  pipeline_created _ _ h := by cases h
  published_created _ h := by cases h

namespace Episode
variable {x : Episode}

theorem Occurs.created (hx : x.Occurs) (h : x.before.Consistent) {u : MixUse} {name : String}
    {call : EngineCall SessionId} (hu : x.before.use? x.task = some u) (hcall : u.call? = some call)
    (hreply : x.action.reply? = some (.ok name)) : Created x.after.log call ⟨name⟩ := by
  obtain ⟨task, htask, hmix⟩ := Option.bind_eq_some_iff.mp hu
  have hwas : x.was = some task := (hx.taken h).task.symm.trans htask
  refine ⟨x.task, task, ?_, (Task.call?_of_mixUse? hmix).trans hcall⟩
  unfold after
  rw [log_take, takeEvents, hwas, hreply]
  simp [repliedEvents]

theorem Occurs.recorded (hx : x.Occurs) (h : x.before.Consistent) (hr : x.before.Recorded) :
    x.after.Recorded := by
  have hturn := hx.mix_turn h
  obtain ⟨more, hlog⟩ := x.log_after
  refine ⟨?_, ?_, ?_⟩
  · intro t task htask hcall
    rw [x.get?_after] at htask
    by_cases hne : x.task = t
    · rw [if_pos hne] at htask
      have hleft : x.result.task.ongoing? = some task := htask
      unfold after
      rw [log_take, takeEvents, hleft, ← hne]
      simp [issuedEvents, hcall]
    · rw [if_neg hne] at htask
      rw [hlog]
      exact List.mem_append_left _ (hr.issued t task htask hcall)
  · intro t pipeline hu
    by_cases hne : x.task = t
    · subst hne
      obtain ⟨hbefore, hreply⟩ := hturn.pipeline_of_creatingMixer hu
      exact hx.created h hbefore rfl hreply
    · rw [x.use?_after, if_neg hne] at hu
      rw [hlog]
      exact (hr.pipeline_created t pipeline hu).more
  · intro mix hp
    rcases hturn.published_cases with hsame | hnone | ⟨pipeline, id, hu, hreply, hnew⟩
    · obtain ⟨hpipeline, hmixer⟩ := hr.published_created mix (hsame.symm.trans hp)
      rw [hlog]
      exact ⟨hpipeline.more, hmixer.more⟩
    · rw [hnone] at hp
      cases hp
    · rw [hnew] at hp
      cases hp
      refine ⟨?_, hx.created h hu rfl hreply⟩
      rw [hlog]
      exact (hr.pipeline_created _ _ hu).more

end Episode

theorem recorded (actions : List Action) : (run {} actions).Recorded :=
  history_induction (P := fun _ b => b.Recorded) recorded_empty
    (fun _ _ hr h hx => hx.recorded h hr) actions

/-- A call that was issued was answered, or its task still waits for the answer. -/
theorem answered_or_waiting (actions : List Action) : ∀ t task,
    .issued t task ∈ (run {} actions).log → task.call?.isSome ∧
      ((∃ reply, .replied t task reply ∈ (run {} actions).log) ∨
        (run {} actions).tasks.get? t = some task) := by
  refine history_induction (P := fun _ b => ∀ t task, .issued t task ∈ b.log → task.call?.isSome ∧
    ((∃ reply, .replied t task reply ∈ b.log) ∨ b.tasks.get? t = some task)) ?_ ?_ actions
  · intro t task h
    cases h
  · intro _ x hp h hx t task hm
    have ht := hx.taken h
    have hcases := issued_cases_take hm
    rw [Episode.after, log_take, ← Episode.after, x.get?_after]
    rcases hcases with hm | ⟨rfl, hleft, hcall⟩
    · obtain ⟨hcall, ⟨reply, hreplied⟩ | hwaits⟩ := hp t task hm
      · exact ⟨hcall, Or.inl ⟨reply, List.mem_append_left _ hreplied⟩⟩
      · refine ⟨hcall, ?_⟩
        by_cases hne : x.task = t
        · subst hne
          have hwas : x.was = some task := ht.task.symm.trans hwaits
          obtain ⟨reply, hreply⟩ := Option.isSome_iff_exists.mp (ht.replied task hwas hcall)
          refine Or.inl ⟨reply, List.mem_append_right _ ?_⟩
          simp [takeEvents, repliedEvents, hwas, hreply]
        · exact Or.inr (by rw [if_neg hne, hwaits])
    · exact ⟨hcall, Or.inr ((if_pos rfl).trans hleft)⟩

theorem mixUse?_of_createPipeline {task : Task} (h : task.call? = some .createPipeline) :
    task.mixUse? = some (.request .creatingPipeline) := by
  have hrequest : ∀ {stage : MixRequest},
      stage.call? = some (EngineCall.createPipeline (L := SessionId)) → stage = .creatingPipeline := by
    intro stage hcall
    cases stage <;> first | rfl | cases hcall
  have hwithdrawal : ∀ {stage : MixWithdrawal},
      stage.call? ≠ some (EngineCall.createPipeline (L := SessionId)) := by
    intro stage hcall
    cases stage <;> cases hcall
  cases task with
  | negotiation n stage =>
    cases stage with
    | obtainingMix request =>
      obtain rfl := hrequest h
      rfl
    | connecting endpoint port =>
      cases hrole : n.role <;> simp [Task.call?, NegotiationStage.call?, hrole] at h
    | _ => cases h
  | shutdown stage =>
    cases stage with
    | stopping => cases h
    | withdrawing stage => exact (hwithdrawal h).elim
  | mixRequest stage =>
    obtain rfl := hrequest h
    rfl
  | mixWithdrawal stage => exact (hwithdrawal h).elim
  | _ => cases h

theorem Episode.creates_of_issues {x : Episode} (h : x.issues? = some .createPipeline) :
    x.after.use? x.task = some (.request .creatingPipeline) := by
  obtain ⟨task, hleft, hcall⟩ := Option.bind_eq_some_iff.mp h
  rw [x.use?_after, if_pos rfl, Coordinator.mixUseOf]
  change x.left.bind Task.mixUse? = _
  rw [hleft]
  exact mixUse?_of_createPipeline hcall

/-- What an episode of a run relies on and preserves. -/
theorem locked_of_mem {actions : List Action} {x : Episode} (hx : x ∈ history {} actions) :
    x.Occurs ∧ x.before.Consistent ∧ x.before.Locked ∧ x.before.Accounts ∧ x.before.Ledger := by
  obtain ⟨hoccurs, earlier, _, _, hbefore, _⟩ := occurs_of_mem hx
  rw [hbefore]
  exact ⟨hoccurs, consistent earlier, locked earlier, accounts earlier, ledger earlier⟩

/-- A mix stays published as long as no withdrawal takes it out. -/
theorem published_run (actions : List Action) {mix : SharedMix}
    (hp : (run {} actions).coordinator.mix.published = some mix) (more : List Action)
    (hno : ∀ x ∈ (run {} actions).history more,
      x.after.use? x.task ≠ some (.withdrawal (.releasingMixer mix))) :
    ((run {} actions).run more).coordinator.mix.published = some mix ∧
      ∀ x ∈ (run {} actions).history more, x.issues? ≠ some .createPipeline ∧
        ∀ mix', x.obtained? = some (.ok mix') → mix' = mix := by
  refine later_induction actions (P := fun past b =>
    (∀ x ∈ past, x.after.use? x.task ≠ some (.withdrawal (.releasingMixer mix))) →
      b.coordinator.mix.published = some mix ∧ ∀ x ∈ past, x.issues? ≠ some .createPipeline ∧
        ∀ mix', x.obtained? = some (.ok mix') → mix' = mix)
    (fun _ => ⟨hp, fun _ hx => by cases hx⟩) ?_ hno
  intro past x ih ⟨earlier, hbefore⟩ hx _ hno
  obtain ⟨hpublished, hsteps⟩ := ih fun y hy => hno y (List.mem_append_left _ hy)
  have h : x.before.Consistent := hbefore ▸ consistent earlier
  have hl : x.before.Locked := hbefore ▸ locked earlier
  obtain ⟨hkept, hcreates, hret⟩ := ((hx.mix_turn h).keeps_published hl.agree (hl.inside x.task)
    hpublished).resolve_left (hno x (List.mem_append_right _ (List.mem_singleton_self x)))
  refine ⟨hkept, fun y hy => ?_⟩
  rcases List.mem_append.mp hy with hy | hy
  · exact hsteps y hy
  · obtain rfl := List.mem_singleton.mp hy
    exact ⟨fun hissues => hcreates (Episode.creates_of_issues hissues), hret⟩

section Places
variable {b : Broadcast} (ac : b.Accounts) {kind : ObjectKind} {id : ObjectId}
include ac

theorem Accounts.mem_keeps (hm : (kind, id) ∈ made b.log) (hid : id ∈ b.coordinator.mix.keeps) :
    ∃ mix, b.coordinator.mix.published = some mix ∧ (kind, id) ∈ mix.objects := by
  obtain ⟨mix, hp, hid⟩ := List.mem_flatMap.mp hid
  have hp := Option.mem_toList.mp hp
  have hobjects : mix.objects ⊆ made b.log := fun o ho =>
    ac.mix_made (by simp [MixCell.objects, show b.coordinator.mix.published = some mix from hp, ho])
  refine ⟨mix, hp, ?_⟩
  rcases List.mem_cons.mp hid with rfl | hid
  · rw [ac.kind_eq hm (hobjects List.mem_cons_self)]
    exact List.mem_cons_self
  · obtain rfl := List.mem_singleton.mp hid
    rw [ac.kind_eq hm (hobjects (List.mem_cons_of_mem _ (List.mem_singleton_self _)))]
    exact List.mem_cons_of_mem _ (List.mem_singleton_self _)

omit ac in
theorem Consistent.mem_kept (h : b.Consistent) (hid : id ∈ b.kept) :
    ∃ t, b.use? t = some (.request (.creatingMixer ⟨id⟩)) ∨
      ∃ mix, mix.pipeline.id = id ∧ b.use? t = some (.withdrawal (.releasingMixer mix)) := by
  obtain ⟨task, ht, hid⟩ := Multiset.mem_bind.mp hid
  obtain ⟨t, ht⟩ := (Table.mem_contents_iff h.tasks_distinct task).mp ht
  obtain ⟨u, hu, hid⟩ := List.mem_flatMap.mp (Multiset.mem_coe.mp hid)
  have huse : b.use? t = some u := by
    rw [use?, ht]
    exact Option.mem_toList.mp hu
  refine ⟨t, ?_⟩
  unfold MixUse.keeps at hid
  split at hid
  · obtain rfl := List.mem_singleton.mp hid
    exact Or.inl huse
  · obtain rfl := List.mem_singleton.mp hid
    exact Or.inr ⟨_, rfl, huse⟩
  · cases hid

theorem Accounts.pipeline_of_kept (h : b.Consistent) (hid : id ∈ b.kept) :
    (.pipeline, id) ∈ made b.log := by
  have hobjects : ∀ t u, b.use? t = some u → (.pipeline, id) ∈ u.objects →
      (.pipeline, id) ∈ made b.log := by
    intro t u hu ho
    obtain ⟨task, ht, hmix⟩ := Option.bind_eq_some_iff.mp hu
    refine ac.task_made t task ht ?_
    unfold Task.mixUse? at hmix
    split at hmix <;> cases hmix
    · exact List.mem_append_right _ ho
    · exact ho
    · exact ho
    · exact ho
  rcases h.mem_kept hid with ⟨t, hu | ⟨mix, rfl, hu⟩⟩
  · exact hobjects t _ hu (List.mem_singleton_self _)
  · exact hobjects t _ hu List.mem_cons_self

variable (hb : b.Ledger) (h : b.Consistent)
include hb h

theorem Accounts.pipeline_once (hm : (.pipeline, id) ∈ made b.log) :
    (releases b.log).count id = 1 ∨ (releases b.log).count id = 0 ∧
      ((∃ mix, b.coordinator.mix.published = some mix ∧ mix.pipeline.id = id) ∨
        ∃ t, b.use? t = some (.request (.creatingMixer ⟨id⟩)) ∨
          ∃ mix, mix.pipeline.id = id ∧ b.use? t = some (.withdrawal (.releasingMixer mix))) := by
  rcases hb.places ac hm rfl with ⟨hone, _⟩ | ⟨hnone, hkept | hkept⟩
  · exact Or.inl hone
  · obtain ⟨mix, hp, ho⟩ := ac.mem_keeps hm hkept
    refine Or.inr ⟨hnone, Or.inl ⟨mix, hp, ?_⟩⟩
    simpa [SharedMix.objects, eq_comm] using ho
  · exact Or.inr ⟨hnone, Or.inr (h.mem_kept hkept)⟩

theorem Accounts.mixer_once (hm : (.mixer, id) ∈ made b.log) :
    (releases b.log).count id = 1 ∨ (releases b.log).count id = 0 ∧
      ∃ mix, b.coordinator.mix.published = some mix ∧ mix.mixer.id = id := by
  rcases hb.places ac hm rfl with ⟨hone, _⟩ | ⟨hnone, hkept | hkept⟩
  · exact Or.inl hone
  · obtain ⟨mix, hp, ho⟩ := ac.mem_keeps hm hkept
    refine Or.inr ⟨hnone, mix, hp, ?_⟩
    simpa [SharedMix.objects, eq_comm] using ho
  · cases ac.kind_eq hm (ac.pipeline_of_kept h hkept)

omit h in
theorem Accounts.published_unreleased {mix : SharedMix}
    (hp : b.coordinator.mix.published = some mix) :
    mix.pipeline.id ∉ releases b.log ∧ mix.mixer.id ∉ releases b.log := by
  have hno : ∀ kind id, kind.isMedia = false → (kind, id) ∈ mix.objects →
      id ∈ b.coordinator.mix.keeps → id ∉ releases b.log := by
    intro kind id hkind ho hid
    have hm : (kind, id) ∈ made b.log := ac.mix_made (by simp [MixCell.objects, hp, ho])
    rcases hb.places ac hm hkind with ⟨_, hnot, _⟩ | ⟨hnone, _⟩
    · exact absurd hid hnot
    · exact List.count_eq_zero.mp hnone
  refine ⟨hno .pipeline _ rfl List.mem_cons_self ?_, hno .mixer _ rfl ?_ ?_⟩
  · simp [MixCell.keeps, hp]
  · exact List.mem_cons_of_mem _ (List.mem_singleton_self _)
  · simp [MixCell.keeps, hp]

end Places

/-- A withdrawal that comes to release the pipeline has had the mixer released before. -/
theorem mixer_released_first {actions : List Action} {x : Episode} (hx : x ∈ history {} actions)
    {mix : SharedMix} (hu : x.after.use? x.task = some (.withdrawal (.releasingPipeline mix))) :
    mix.mixer.id ∈ releases x.before.log ∧ mix.pipeline.id ∉ releases x.before.log := by
  obtain ⟨hoccurs, h, _, ac, hb⟩ := locked_of_mem hx
  have hbefore := (hoccurs.mix_turn h).mixer_of_releasingPipeline hu
  obtain ⟨task, ht, hmix⟩ := Option.bind_eq_some_iff.mp hbefore
  have hcall := Task.call?_of_mixUse? hmix
  constructor
  · obtain ⟨_, earlier, _, _, hrun, _⟩ := occurs_of_mem hx
    have hr : x.before.Recorded := hrun ▸ recorded earlier
    refine List.mem_filterMap.mpr ⟨_, hr.issued x.task task ht (by rw [hcall]; rfl), ?_⟩
    change task.call?.bind EngineCall.released? = _
    rw [hcall]
    rfl
  · have hkept : mix.pipeline.id ∈ x.before.kept := by
      refine Multiset.mem_bind.mpr ⟨task, Table.mem_contents ht, ?_⟩
      simp [keptBy, hmix, MixUse.keeps]
    rcases hb.places ac (ac.pipeline_of_kept h hkept) rfl with ⟨_, _, hnot⟩ | ⟨hnone, _⟩
    · exact absurd hkept hnot
    · exact List.count_eq_zero.mp hnone

/--
However requests and withdrawals of the mix interleave, one of them at a time makes the mix or takes it
down. A pipeline is made only while no mix is published. Every pipeline that was made is released once,
except for that of the published mix, of a mix that is being completed, or of one that is being taken
down and has its mixer released first; and every mixer except for that of the published mix. A published
mix was made as a whole and nothing of it was released. What a request returns is published, and stays
published, with no other pipeline made and no other mix returned, until a withdrawal takes it out.
-/
theorem shared_mix_single_flight (actions : List Action) :
    let b := run {} actions
    (∀ t t' u u', b.use? t = some u → b.use? t' = some u' → u.waits = false → u'.waits = false →
      t = t') ∧
    (∀ x ∈ history {} actions, x.issues? = some .createPipeline →
      x.before.coordinator.mix.published = none ∧ x.after.coordinator.mix.published = none) ∧
    (∀ id, (.pipeline, id) ∈ made b.log →
      (releases b.log).count id = 1 ∨ (releases b.log).count id = 0 ∧
        ((∃ mix, b.coordinator.mix.published = some mix ∧ mix.pipeline.id = id) ∨
          ∃ t, b.use? t = some (.request (.creatingMixer ⟨id⟩)) ∨
            ∃ mix, mix.pipeline.id = id ∧ b.use? t = some (.withdrawal (.releasingMixer mix)))) ∧
    (∀ id, (.mixer, id) ∈ made b.log →
      (releases b.log).count id = 1 ∨ (releases b.log).count id = 0 ∧
        ∃ mix, b.coordinator.mix.published = some mix ∧ mix.mixer.id = id) ∧
    (∀ x ∈ history {} actions, ∀ mix,
      x.after.use? x.task = some (.withdrawal (.releasingPipeline mix)) →
      mix.mixer.id ∈ releases x.before.log ∧ mix.pipeline.id ∉ releases x.before.log) ∧
    (∀ mix, b.coordinator.mix.published = some mix →
      Created b.log .createPipeline mix.pipeline.id ∧
      Created b.log (.createMixer mix.pipeline) mix.mixer.id ∧
      mix.pipeline.id ∉ releases b.log ∧ mix.mixer.id ∉ releases b.log) ∧
    b.coordinator.mix.made = b.coordinator.mix.published ∧
    (∀ x ∈ history {} actions, ∀ mix, x.obtained? = some (.ok mix) →
      x.after.coordinator.mix.published = some mix) ∧
    (∀ mix, b.coordinator.mix.published = some mix → ∀ more,
      (∀ x ∈ b.history more, x.after.use? x.task ≠ some (.withdrawal (.releasingMixer mix))) →
      (b.run more).coordinator.mix.published = some mix ∧
        ∀ x ∈ b.history more, x.issues? ≠ some .createPipeline ∧
          ∀ mix', x.obtained? = some (.ok mix') → mix' = mix) := by
  have h := consistent actions
  have hl := locked actions
  have ac := accounts actions
  have hb := ledger actions
  refine ⟨fun t t' u u' hu hu' hwaits hwaits' => ?_, fun x hx hissues => ?_,
    fun id => ac.pipeline_once hb h, fun id => ac.mixer_once hb h,
    fun x hx mix => mixer_released_first hx, fun mix hp => ?_, hl.agree, fun x hx mix => ?_,
    fun mix hp more => published_run actions hp more⟩
  · have hheld := (hl.inside t u hu hwaits).1
    rw [(hl.inside t' u' hu' hwaits').1] at hheld
    exact (Option.some.inj hheld).symm
  · obtain ⟨hoccurs, hc, hlocked, _⟩ := locked_of_mem hx
    exact (hoccurs.mix_turn hc).unpublished_of_creatingPipeline hlocked.agree
      (Episode.creates_of_issues hissues)
  · obtain ⟨hpipeline, hmixer⟩ := (recorded actions).published_created mix hp
    exact ⟨hpipeline, hmixer, ac.published_unreleased hb hp⟩
  · obtain ⟨hoccurs, hc, hlocked, _⟩ := locked_of_mem hx
    exact (hoccurs.mix_turn hc).published_of_ret hlocked.agree

end Broadcast

end Rostrum
