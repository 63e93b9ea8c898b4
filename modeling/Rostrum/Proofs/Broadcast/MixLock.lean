import Rostrum.Proofs.Broadcast.MixTurns

/-!
# The lock on the shared mix

Whoever requests the mix or withdraws it stands in one queue, whose head is the holder of the lock. A
task that has come past waiting is the holder, and while it works nothing is made and nothing is
published. So what the holder of the lock sees and what everybody sees is the same in every state.
-/

namespace Rostrum

namespace MixCell

/-- The holder of the lock, then those that wait for it. -/
def queue (m : MixCell) : List TaskId := m.holder.toList ++ m.waiting

@[simp] theorem unlock_made (m : MixCell) : m.unlock.made = m.made := by
  unfold unlock
  split <;> rfl

@[simp] theorem unlock_published (m : MixCell) : m.unlock.published = m.published := by
  unfold unlock
  split <;> rfl

theorem unlock_queue (m : MixCell) : m.unlock.queue = m.waiting := by
  unfold unlock queue
  split <;> simp_all

theorem unlock_free (m : MixCell) (h : m.unlock.holder = none) : m.unlock.waiting = [] := by
  unfold unlock at h ⊢
  split at h
  · assumption
  · cases h

namespace Turn
variable {m m' : MixCell} {t : TaskId} {use use' : Option MixUse} {reply : Option Reply}
  {ret : Option (Except EngineFault SharedMix)} (h : m.Turn t use reply use' ret m')
include h

theorem agree (ha : m.made = m.published) : m'.made = m'.published := by
  cases h with
  | idle | queues | pipelineMade | mixerFailed | mixerReleased => exact ha
  | begins henters => cases henters <;> exact ha
  | finds henters => cases henters <;> simpa using ha
  | pipelineFailed | undone | pipelineReleased => simpa using ha
  | mixerMade => simp
  | takesOut => rfl
  | takesNothing henters hnone =>
    rw [unlock_made, unlock_published]
    exact henters.made.trans hnone

variable (hinside : ∀ u, use = some u → u.waits = false → m.holder = some t ∧ m.made = none)
include hinside

/-- A task that has come past waiting is the holder of the lock, and nothing is made. -/
theorem inside {u' : MixUse} (hafter : use' = some u') (hwaits : u'.waits = false) :
    m'.holder = some t ∧ m'.made = none := by
  cases h with
  | idle | finds | pipelineFailed | mixerMade | undone | takesNothing | pipelineReleased =>
    cases hafter
  | queues _ hqueued =>
    cases hafter
    rw [hwaits] at hqueued
    cases hqueued
  | begins henters hnone =>
    cases henters with
    | free => exact ⟨rfl, hnone⟩
    | handed hheld => exact ⟨hheld, hnone⟩
  | takesOut henters =>
    cases henters with
    | free => exact ⟨rfl, rfl⟩
    | handed hheld => exact ⟨hheld, rfl⟩
  | pipelineMade | mixerFailed | mixerReleased => exact hinside _ rfl rfl

/-- What a step does to the cell while somebody else holds the lock. -/
theorem others {t' : TaskId} (hne : t ≠ t') (hheld : m.holder = some t') :
    m'.holder = some t' ∧ m'.made = m.made ∧ m'.published = m.published := by
  have hself : m.holder ≠ some t := by
    rw [hheld]
    exact fun heq => hne (Option.some.inj heq).symm
  have hno : ∀ {waiting m'}, ¬ m.Enters t waiting use m' := by
    intro waiting m' henters
    cases henters with
    | free hfree =>
      rw [hheld] at hfree
      cases hfree
    | handed hmine => exact hself hmine
  cases h with
  | idle => exact ⟨hheld, rfl, rfl⟩
  | queues => exact ⟨hheld, rfl, rfl⟩
  | begins henters | finds henters | takesOut henters | takesNothing henters => exact (hno henters).elim
  | pipelineMade | pipelineFailed | mixerMade | mixerFailed | undone | mixerReleased
  | pipelineReleased => exact absurd (hinside _ rfl rfl).1 hself

/-- Who comes to the mix joins the queue at its end, and who is done leaves it at its head. -/
theorem queue_cases (hfree : m.holder = none → m.waiting = []) :
    (m'.holder = none → m'.waiting = []) ∧
      (use.isSome = use'.isSome ∧ m'.queue = m.queue ∨
        use = none ∧ use'.isSome ∧ m'.queue = m.queue ++ [t] ∨
        use.isSome ∧ use' = none ∧ m.queue = t :: m'.queue) := by
  have hleaves : ∀ {m₁ : MixCell}, m₁.waiting = m.waiting → m.holder = some t →
      m.queue = t :: m₁.unlock.queue := by
    intro m₁ hwaiting hheld
    rw [unlock_queue, hwaiting, queue, hheld]
    rfl
  cases h with
  | idle => exact ⟨hfree, Or.inl ⟨rfl, rfl⟩⟩
  | queues htaken =>
    refine ⟨fun hnone => ?_, Or.inr (Or.inl ⟨rfl, rfl, (List.append_assoc _ _ _).symm⟩)⟩
    rw [htaken] at hnone
    cases hnone
  | begins henters | takesOut henters =>
    cases henters with
    | free hnone =>
      refine ⟨fun hheld => (by cases hheld), Or.inr (Or.inl ⟨rfl, rfl, ?_⟩)⟩
      simp [queue, hnone, hfree hnone]
    | handed hheld => exact ⟨hfree, Or.inl ⟨rfl, rfl⟩⟩
  | finds henters | takesNothing henters =>
    refine ⟨unlock_free _, ?_⟩
    cases henters with
    | free hnone =>
      refine Or.inl ⟨rfl, ?_⟩
      rw [unlock_queue]
      simp [queue, hnone]
    | handed hheld => exact Or.inr (Or.inr ⟨rfl, rfl, hleaves rfl hheld⟩)
  | pipelineMade | mixerFailed | mixerReleased => exact ⟨hfree, Or.inl ⟨rfl, rfl⟩⟩
  | pipelineFailed | undone | pipelineReleased | mixerMade =>
    refine ⟨unlock_free _, Or.inr (Or.inr ⟨rfl, rfl, ?_⟩)⟩
    exact hleaves rfl (hinside _ rfl rfl).1

end Turn
end MixCell

namespace Broadcast

/-- How far a task has come with the mix. -/
def use? (b : Broadcast) (t : TaskId) : Option MixUse := (b.tasks.get? t).bind Task.mixUse?

theorem Episode.use?_after (x : Episode) (t : TaskId) :
    x.after.use? t = if x.task = t then Coordinator.mixUseOf x.result else x.before.use? t := by
  unfold use?
  rw [x.get?_after]
  split <;> rfl

theorem Episode.Occurs.use?_before {x : Episode} (hx : x.Occurs) (h : x.before.Consistent) :
    x.before.use? x.task = x.was.bind Task.mixUse? := by
  rw [use?, (hx.taken h).task]

/-- What an episode does to the mix, by what its task does for it before and afterwards. -/
theorem Episode.Occurs.mix_turn {x : Episode} (hx : x.Occurs) (h : x.before.Consistent) :
    x.before.coordinator.mix.Turn x.task (x.before.use? x.task) x.action.reply? (x.after.use? x.task)
      x.obtained? x.after.coordinator.mix := by
  rw [hx.use?_before h, x.use?_after, if_pos rfl]
  exact hx.turns h

/-- What holds of the lock between two steps. -/
structure Locked (b : Broadcast) : Prop where
  agree : b.coordinator.mix.made = b.coordinator.mix.published
  free : b.coordinator.mix.holder = none → b.coordinator.mix.waiting = []
  nodup : b.coordinator.mix.queue.Nodup
  mem_queue : ∀ t, t ∈ b.coordinator.mix.queue ↔ (b.use? t).isSome
  inside : ∀ t u, b.use? t = some u → u.waits = false →
    b.coordinator.mix.holder = some t ∧ b.coordinator.mix.made = none

theorem locked_empty : Locked {} where
  agree := rfl
  free _ := rfl
  nodup := List.nodup_nil
  mem_queue _ := by simp [MixCell.queue, use?, Table.get?, Table.find]
  inside _ _ h := by cases h

theorem Locked.step {x : Episode} (hl : x.before.Locked) (h : x.before.Consistent) (hx : x.Occurs) :
    x.after.Locked := by
  have hturn := hx.mix_turn h
  have hinside := hl.inside x.task
  have hothers : ∀ t, x.task ≠ t → x.after.use? t = x.before.use? t := fun t hne => by
    rw [x.use?_after, if_neg hne]
  obtain ⟨hfree, hqueue⟩ := hturn.queue_cases hinside hl.free
  have hself := hl.mem_queue x.task
  refine ⟨hturn.agree hl.agree, hfree, ?_, ?_, ?_⟩
  · rcases hqueue with ⟨_, hq⟩ | ⟨hnone, _, hq⟩ | ⟨_, _, hq⟩
    · rw [hq]
      exact hl.nodup
    · rw [hq]
      refine List.nodup_append.mpr ⟨hl.nodup, List.nodup_singleton _, ?_⟩
      rintro t ht _ hsingle rfl
      obtain rfl := List.mem_singleton.mp hsingle
      rw [hself, hnone] at ht
      cases ht
    · have hn := hl.nodup
      rw [hq] at hn
      exact (List.nodup_cons.mp hn).2
  · intro t
    by_cases hne : x.task = t
    · subst hne
      rcases hqueue with ⟨hsame, hq⟩ | ⟨_, hsome, hq⟩ | ⟨_, hnone, hq⟩
      · rw [hq, hself, hsame]
      · simp [hq, hsome]
      · have hn := hl.nodup
        rw [hq] at hn
        simp [hnone, (List.nodup_cons.mp hn).1]
    · rw [hothers t hne, ← hl.mem_queue t]
      rcases hqueue with ⟨_, hq⟩ | ⟨_, _, hq⟩ | ⟨_, _, hq⟩
      · rw [hq]
      · simp [hq, Ne.symm hne]
      · simp [hq, Ne.symm hne]
  · intro t u hu hwaits
    by_cases hne : x.task = t
    · subst hne
      exact hturn.inside hinside hu hwaits
    · rw [hothers t hne] at hu
      obtain ⟨hheld, hmade⟩ := hl.inside t u hu hwaits
      obtain ⟨hheld', hmade', _⟩ := hturn.others hinside hne hheld
      exact ⟨hheld', hmade'.trans hmade⟩

theorem locked (actions : List Action) : (run {} actions).Locked :=
  history_induction (P := fun _ b => b.Locked) locked_empty
    (fun _ _ hl h hx => hl.step h hx) actions

end Broadcast

end Rostrum
