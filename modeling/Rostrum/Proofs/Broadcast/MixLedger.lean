import Rostrum.Proofs.Broadcast.MixLock
import Rostrum.Proofs.Broadcast.Release

/-!
# Pipelines and mixers are accounted for

A pipeline or a mixer that was made belongs to the published mix, or to the one task that is about to
complete the mix or to take it down, or its release was asked for. As with endpoints and ports it is in
one of these places only.
-/

namespace Rostrum

open Broadcast

namespace MixUse

/-- What a task has to itself and has not asked to be released. -/
def keeps : MixUse → List ObjectId
  | .request (.creatingMixer pipeline) => [pipeline.id]
  | .withdrawal (.releasingMixer mix) => [mix.pipeline.id]
  | _ => []

/-- What a task asks to be released. -/
def releases? (u : MixUse) : Option ObjectId :=
  (u.call? : Option (EngineCall SessionId)).bind EngineCall.released?

/-- What a reply brings. -/
def makes? (u : MixUse) (reply : Reply) : Option ObjectId :=
  ((u.call? : Option (EngineCall SessionId)).bind EngineCall.creates?).bind fun _ =>
    reply.toOption.map ObjectId.mk

end MixUse

def MixCell.keeps (m : MixCell) : List ObjectId :=
  m.published.toList.flatMap fun mix => [mix.pipeline.id, mix.mixer.id]

@[simp] theorem MixCell.unlock_keeps (m : MixCell) : m.unlock.keeps = m.keeps := by
  rw [keeps, unlock_published, keeps]

theorem MixCell.keeps_of_published {m : MixCell} {published : Option SharedMix}
    (h : m.published = published) :
    m.keeps = published.toList.flatMap fun mix => [mix.pipeline.id, mix.mixer.id] := by
  rw [keeps, h]

theorem Task.call?_of_mixUse? {task : Task} {u : MixUse} (h : task.mixUse? = some u) :
    task.call? = u.call? := by
  unfold mixUse? at h
  split at h <;> cases h <;> rfl

namespace MixCell.Turn
variable {m m' : MixCell} {t : TaskId} {use use' : Option MixUse} {reply : Option Reply}
  {ret : Option (Except EngineFault SharedMix)}

theorem keeps_of_waits {u : MixUse} (h : u.waits) : u.keeps = [] ∧ u.releases? = none := by
  unfold MixUse.waits at h
  split at h <;> first | exact ⟨rfl, rfl⟩ | cases h

/-- A task that gets the lock brought nothing and kept nothing. -/
theorem brings_of_enters {waiting : MixUse} (hwaits : waiting.waits) (h : m.Enters t waiting use m')
    (reply : Option Reply) :
    use.toList.flatMap MixUse.keeps = [] ∧ (use.bind fun u => reply.bind u.makes?) = none ∧
      m'.published = m.published := by
  cases h with
  | free => exact ⟨rfl, rfl, rfl⟩
  | handed =>
    refine ⟨by simp [(keeps_of_waits hwaits).1], ?_, rfl⟩
    unfold MixUse.waits at hwaits
    split at hwaits <;> first | (cases reply <;> rfl) | cases hwaits

/-- What was kept before a step or is new is kept afterwards or released. -/
theorem balance (h : m.Turn t use reply use' ret m') (hagree : m.made = m.published)
    (hinside : ∀ u, use = some u → u.waits = false → m.holder = some t ∧ m.made = none) :
    (m.keeps : Multiset ObjectId) + (use.toList.flatMap MixUse.keeps : List ObjectId) +
        ((use.bind fun u => reply.bind u.makes?).toList : List ObjectId) =
      m'.keeps + (use'.toList.flatMap MixUse.keeps : List ObjectId) +
        ((use'.bind MixUse.releases?).toList : List ObjectId) := by
  have hnone : ∀ u, use = some u → u.waits = false → m.published = none :=
    fun u hu hwaits => hagree.symm.trans (hinside u hu hwaits).2
  cases h with
  | idle => rfl
  | @queues t' u reply _ hwaits =>
    obtain ⟨hkeeps, hreleases⟩ := keeps_of_waits hwaits
    simp [MixCell.keeps, hkeeps, hreleases]
  | begins henters hmade =>
    obtain ⟨hkeeps, hmakes, hsame⟩ := brings_of_enters rfl henters reply
    rw [hkeeps, hmakes, keeps_of_published hsame]
    rfl
  | finds henters hmade =>
    obtain ⟨hkeeps, hmakes, hsame⟩ := brings_of_enters rfl henters reply
    rw [hkeeps, hmakes, unlock_keeps, keeps_of_published hsame]
    rfl
  | takesNothing henters hmade =>
    obtain ⟨hkeeps, hmakes, hsame⟩ := brings_of_enters rfl henters reply
    rw [hkeeps, hmakes, unlock_keeps, keeps_of_published (hagree.symm.trans hmade)]
    rfl
  | takesOut henters hmade =>
    obtain ⟨hkeeps, hmakes, hsame⟩ := brings_of_enters rfl henters reply
    rw [hkeeps, hmakes, keeps_of_published (hagree.symm.trans hmade)]
    rfl
  | mixerMade =>
    rw [unlock_keeps, keeps_of_published (hnone _ rfl rfl)]
    rfl
  | pipelineMade | mixerFailed | mixerReleased =>
    rw [keeps_of_published (hnone _ rfl rfl)]
    rfl
  | pipelineFailed | undone | pipelineReleased =>
    rw [unlock_keeps, keeps_of_published (hnone _ rfl rfl)]
    rfl

end MixCell.Turn

namespace Broadcast

/-- The pipelines and mixers among some objects. -/
def sharedOf (objects : List (ObjectKind × ObjectId)) : List ObjectId :=
  objects.filterMap fun o => if o.1.isMedia then none else some o.2

theorem mem_sharedOf_iff {objects : List (ObjectKind × ObjectId)} {id : ObjectId} :
    id ∈ sharedOf objects ↔ ∃ kind, kind.isMedia = false ∧ (kind, id) ∈ objects := by
  unfold sharedOf
  rw [List.mem_filterMap]
  constructor
  · rintro ⟨⟨kind, id'⟩, hm, h⟩
    cases hkind : kind.isMedia
    · simp only [hkind, Bool.false_eq_true, if_false, Option.some.injEq] at h
      exact ⟨kind, hkind, h ▸ hm⟩
    · simp [hkind] at h
  · rintro ⟨kind, hkind, hm⟩
    exact ⟨(kind, id), hm, by simp [hkind]⟩

theorem sharedOf_append (objects more : List (ObjectKind × ObjectId)) :
    sharedOf (objects ++ more) = sharedOf objects ++ sharedOf more :=
  List.filterMap_append

/-- The object whose release an event asks for when the mix is undone or withdrawn. -/
def Event.shed? : Event → Option ObjectId
  | .issued _ task => task.mixUse?.bind MixUse.releases?
  | _ => none

def shed (log : List Event) : List ObjectId := log.filterMap Event.shed?

/-- What a task keeps of a mix. -/
def keptBy (task : Task) : Multiset ObjectId := (task.mixUse?.toList.flatMap MixUse.keeps : List ObjectId)

def kept (b : Broadcast) : Multiset ObjectId := b.tasks.contents.bind keptBy

/-- Of pipelines and mixers a step brings what its part on the mix makes. -/
theorem sharedOf_brought (was : Option Task) (reply : Option Reply) :
    sharedOf (brought was reply) =
      ((was.bind Task.mixUse?).bind fun u => reply.bind u.makes?).toList := by
  cases was with
  | none => rfl
  | some task =>
    rcases reply with _ | fault | name
    · cases h : task.mixUse? <;> simp [brought, sharedOf, h]
    · cases h : task.mixUse? <;> simp [brought, madeBy, sharedOf, h, MixUse.makes?, Except.toOption]
    · cases task with
      | negotiation n stage =>
        cases stage with
        | obtainingMix request => cases request <;> rfl
        | connecting endpoint port =>
          cases hrole : n.role <;> simp [brought, madeBy, Task.call?, NegotiationStage.call?, hrole,
            EngineCall.creates?, sharedOf, Task.mixUse?]
        | _ => rfl
      | shutdown stage =>
        cases stage with
        | stopping => rfl
        | withdrawing stage => cases stage <;> rfl
      | mixRequest stage => cases stage <;> rfl
      | mixWithdrawal stage => cases stage <;> rfl
      | _ => rfl

section Logs
variable (b : Broadcast) (t : TaskId) (before : Option Task) (reply : Option Reply)
  (calls : List Registry.Call) (result : StepResult)

theorem shed_take : shed (b.take t before reply calls result).log =
    shed b.log ++ ((Coordinator.mixUseOf result).bind MixUse.releases?).toList := by
  have hno : ∀ task : Task, task.call? = none → task.mixUse?.bind MixUse.releases? = none := by
    intro task hnone
    cases hu : task.mixUse? with
    | none => rfl
    | some u =>
      rw [Task.call?_of_mixUse? hu] at hnone
      simp [MixUse.releases?, hnone]
  have htake := issued_take b t before reply calls result (fun d => show Event.shed? (.called d) = none
    from rfl) (fun _ _ _ => rfl) (fun _ _ => rfl) hno
  refine htake.trans ?_
  rw [Coordinator.mixUseOf, Option.bind_assoc]
  rfl

end Logs

/-- A pipeline or a mixer that was made is in one place. -/
def Ledger (b : Broadcast) : Prop :=
  (sharedOf (made b.log) : Multiset ObjectId) =
    b.coordinator.mix.keeps + b.kept + (shed b.log : List ObjectId)

theorem Ledger.step {x : Episode} (hb : x.before.Ledger) (hl : x.before.Locked)
    (h : x.before.Consistent) (hx : x.Occurs) : x.after.Ledger := by
  have htask := (hx.taken h).task
  have hturn := (hx.turns h).balance hl.agree (fun u hu hwaits => hl.inside x.task u (by
    rw [use?, htask]
    exact hu) hwaits)
  have hkept := bind_take h.tasks_distinct htask x.action.reply? x.calls x.result keptBy
  have hpart : ∀ task : Option Task, (task.toList : Multiset Task).bind keptBy =
      ((task.bind Task.mixUse?).toList.flatMap MixUse.keeps : List ObjectId) := by
    intro task
    cases task with
    | none => rfl
    | some task => exact Multiset.singleton_bind _ _
  rw [hpart, hpart] at hkept
  unfold Ledger at hb ⊢
  unfold Episode.after
  rw [made_take, shed_take, sharedOf_append, sharedOf_brought, ← Multiset.coe_add, ← Multiset.coe_add, hb]
  -- what the acting task kept is not among what is kept afterwards, so it is added to both
  refine add_right_cancel
    (b := ((x.was.bind Task.mixUse?).toList.flatMap MixUse.keeps : Multiset ObjectId)) ?_
  unfold kept
  change _ = (x.result.coordinator.mix.keeps : Multiset ObjectId) + _ + _ + _
  generalize (x.before.take _ _ _ _ _).tasks.contents.bind keptBy = kept' at *
  calc _ = x.before.coordinator.mix.keeps +
          ((x.was.bind Task.mixUse?).toList.flatMap MixUse.keeps : List ObjectId) +
          (((x.was.bind Task.mixUse?).bind fun u => x.action.reply?.bind u.makes?).toList :
            List ObjectId) +
          x.before.tasks.contents.bind keptBy + (shed x.before.log : List ObjectId) := by abel
    _ = x.result.coordinator.mix.keeps +
          (x.before.tasks.contents.bind keptBy +
            ((x.result.task.ongoing?.bind Task.mixUse?).toList.flatMap MixUse.keeps : List ObjectId)) +
          ((shed x.before.log : List ObjectId) +
            (((Coordinator.mixUseOf x.result).bind MixUse.releases?).toList : List ObjectId)) := by
        rw [hturn]
        unfold Coordinator.mixUseOf
        abel
    _ = _ := by
        rw [← hkept]
        abel

theorem ledger (actions : List Action) : (run {} actions).Ledger := by
  refine (history_induction (P := fun _ b => b.Locked ∧ b.Ledger) ⟨locked_empty, rfl⟩ ?_ actions).2
  rintro _ x ⟨hl, hb⟩ h hx
  exact ⟨hl.step h hx, hb.step hl h hx⟩

/-- A release is asked for when something is taken down, or when the mix is undone or withdrawn. -/
theorem shed_of_released {event : Event} {id : ObjectId} (h : event.released? = some id) :
    event.disposed? = some id ∨ event.shed? = some id := by
  cases event with
  | called | replied => cases h
  | issued t task =>
    cases task with
    | negotiation n stage =>
      cases stage with
      | releasing => exact Or.inl h
      | obtainingMix request => exact Or.inr h
      | connecting endpoint port =>
        cases hrole : n.role <;>
          simp [Event.released?, Task.call?, NegotiationStage.call?, hrole, EngineCall.released?] at h
      | _ => cases h
    | stop => exact Or.inl h
    | apply => cases h
    | shutdown stage =>
      cases stage with
      | stopping => exact Or.inl h
      | withdrawing => exact Or.inr h
    | mixRequest | mixWithdrawal => exact Or.inr h

theorem released_of_shed {event : Event} {id : ObjectId} (h : event.shed? = some id) :
    event.released? = some id := by
  cases event with
  | called | replied => cases h
  | issued t task =>
    obtain ⟨u, hu, hreleases⟩ := Option.bind_eq_some_iff.mp h
    change task.call?.bind EngineCall.released? = some id
    rwa [Task.call?_of_mixUse? hu]

section Results
variable {b : Broadcast} (ac : b.Accounts) {kind : ObjectKind} {id : ObjectId}
  (hm : (kind, id) ∈ made b.log) (hkind : kind.isMedia = false)
include ac hm hkind

theorem Accounts.count_shed : (releases b.log).count id = (shed b.log).count id := by
  unfold releases shed
  rw [List.count_filterMap, List.count_filterMap]
  refine List.countP_congr fun event he => ?_
  rw [beq_iff_eq, beq_iff_eq]
  refine ⟨fun hid => (shed_of_released hid).resolve_left fun hd => ?_, released_of_shed⟩
  exact ac.not_media hm hkind
    (ac.media_of_place (Or.inr (List.mem_filterMap.mpr ⟨event, he, hd⟩)))

/-- A pipeline or a mixer was released once and is kept nowhere, or it is kept and was not released. -/
theorem Ledger.places (hb : b.Ledger) :
    ((releases b.log).count id = 1 ∧ id ∉ b.coordinator.mix.keeps ∧ id ∉ b.kept) ∨
      ((releases b.log).count id = 0 ∧ (id ∈ b.coordinator.mix.keeps ∨ id ∈ b.kept)) := by
  rw [ac.count_shed hm hkind]
  have hone : ((sharedOf (made b.log) : List ObjectId) : Multiset ObjectId).count id = 1 := by
    rw [Multiset.coe_count]
    refine List.count_eq_one_of_mem ?_ (mem_sharedOf_iff.mpr ⟨kind, hkind, hm⟩)
    refine ac.made_nodup.sublist (filterMap_sublist_map ?_ _)
    intro o id ho
    split at ho <;> simp_all
  unfold Ledger at hb
  rw [hb, Multiset.count_add, Multiset.count_add, Multiset.coe_count, Multiset.coe_count] at hone
  rw [← Multiset.count_eq_zero, ← List.count_eq_zero, ← Multiset.count_pos, ← List.count_pos_iff]
  omega

end Results

end Broadcast

end Rostrum
