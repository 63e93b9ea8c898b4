import Rostrum.Proofs.Broadcast.Negotiations

/-!
# The history of a run

The log of a broadcast shows calls and replies. What a step says to clients, what it counts and how a
task ends is not in the log; it is in the history, which lists the steps of a run, each with the
broadcast it was taken in. An action that is not possible leaves no trace in either.
-/

namespace Rostrum.Broadcast

def Action.reply? : Action → Option Reply
  | .reply _ said => some said
  | _ => none

/-- A step of a run: in which broadcast it was taken, by which task, and what came of it. -/
structure Episode where
  before : Broadcast
  action : Action
  task : TaskId
  /-- The task as it was; none if it begins here. -/
  was : Option Task
  result : StepResult

namespace Episode
variable (x : Episode)

def calls : List Registry.Call :=
  match x.was, x.action with
  | none, .request q => requestCalls x.before.coordinator q
  | none, _ => []
  | some task, a => taskCalls x.before.coordinator task a.reply? x.result

def after : Broadcast := x.before.take x.task x.was x.action.reply? x.calls x.result

/-- What is left of the task. -/
def left : Option Task := x.result.task.ongoing?

/-- How an episode comes about: its action is possible, and the coordinator takes the step. -/
inductive Occurs : Episode → Prop where
  | request {b : Broadcast} {q : Request} :
      (∀ order, q = .shutdown order → order.isPerm b.coordinator.registry.sessions) →
      Occurs ⟨b, .request q, ⟨b.nextTask⟩, none, serve b.coordinator ⟨b.nextTask⟩ q⟩
  | turn {b : Broadcast} {t : TaskId} {task : Task} : b.tasks.get? t = some task →
      b.coordinator.hasTurn t task →
      Occurs ⟨b, .turn t, t, some task, b.coordinator.stepTurn t task⟩
  | reply {b : Broadcast} {t : TaskId} {task : Task} {call : EngineCall SessionId} {reply : Reply} :
      b.tasks.get? t = some task → task.call? = some call → admits b.log call reply →
      Occurs ⟨b, .reply t reply, t, some task, b.coordinator.stepReply t task reply⟩

end Episode

variable (b : Broadcast)

/-- The step that an action takes, if it is possible. -/
def episode? (a : Action) : Option Episode :=
  if (b.step? a).isSome then
    match a with
    | .request q => some ⟨b, a, ⟨b.nextTask⟩, none, serve b.coordinator ⟨b.nextTask⟩ q⟩
    | .turn t => (b.tasks.get? t).map fun task => ⟨b, a, t, some task, b.coordinator.stepTurn t task⟩
    | .reply t reply =>
      (b.tasks.get? t).map fun task => ⟨b, a, t, some task, b.coordinator.stepReply t task reply⟩
  else none

def history (b : Broadcast) : List Action → List Episode
  | [] => []
  | a :: rest => (b.episode? a).toList ++ (b.step a).history rest

variable {b}

/-- Every step leads to where the broadcast says it does. -/
theorem step?_cases {a : Action} {b' : Broadcast} (h : b.step? a = some b') :
    ∃ x, b.episode? a = some x ∧ x.after = b' ∧ x.Occurs ∧ x.before = b ∧ x.action = a := by
  have hsome : (b.step? a).isSome := by rw [h]; rfl
  unfold episode?
  rw [if_pos hsome]
  cases a with
  | request q =>
    obtain ⟨hperm, rfl⟩ := request?_cases h
    exact ⟨_, rfl, rfl, .request hperm, rfl, rfl⟩
  | turn t =>
    obtain ⟨task, ht, hturn, rfl⟩ := turn?_cases h
    refine ⟨_, ?_, rfl, .turn ht hturn, rfl, rfl⟩
    simp [ht]
  | reply t reply =>
    obtain ⟨task, call, ht, hcall, hadmits, rfl⟩ := reply?_cases h
    refine ⟨_, ?_, rfl, .reply ht hcall hadmits, rfl, rfl⟩
    simp [ht]

theorem Episode.Occurs.episode? {x : Episode} (hx : x.Occurs) : x.before.episode? x.action = some x := by
  cases hx with
  | @request b q hperm =>
    have hpossible : (b.request? q).isSome := by
      cases q with
      | shutdown order =>
        simp only [request?, if_pos (hperm order rfl)]
        rfl
      | _ => rfl
    exact if_pos hpossible
  | @turn b t task ht hturn =>
    have hpossible : (b.turn? t).isSome := by
      simp only [turn?, ht, if_pos hturn]
      rfl
    refine (if_pos hpossible).trans ?_
    dsimp only
    rw [ht]
    rfl
  | @reply b t task call reply ht hcall hreply =>
    have hpossible : (b.reply? t reply).isSome := by
      simp only [reply?, ht, hcall, if_pos hreply]
      rfl
    refine (if_pos hpossible).trans ?_
    dsimp only
    rw [ht]
    rfl

theorem episode?_eq_none {a : Action} (h : b.step? a = none) : b.episode? a = none := by
  simp [episode?, h]

section Episodes
variable {a : Action} {x : Episode} (h : b.episode? a = some x)
include h

theorem step?_of_episode? : b.step? a = some x.after ∧ x.Occurs ∧ x.before = b ∧ x.action = a := by
  cases hs : b.step? a with
  | none => rw [episode?_eq_none hs] at h; cases h
  | some b' =>
    obtain ⟨y, hy, rfl, hoccurs⟩ := step?_cases hs
    cases h.symm.trans hy
    exact ⟨rfl, hoccurs⟩

theorem step_of_episode? : b.step a = x.after := by
  unfold step
  rw [(step?_of_episode? h).1]
  rfl

end Episodes

theorem step_of_no_episode {a : Action} (h : b.episode? a = none) : b.step a = b := by
  unfold step
  cases hs : b.step? a with
  | none => rfl
  | some b' =>
    obtain ⟨x, hx, _⟩ := step?_cases hs
    cases h.symm.trans hx

namespace Episode
variable {x : Episode}

theorem Occurs.taken (h : x.Occurs) (hb : x.before.Consistent) :
    Taken x.before x.action x.task x.was x.action.reply? x.calls x.result := by
  have hnone : ∀ before, ∀ o ∈ brought before none, o.2 ∉ (made x.before.log).map Prod.snd := by
    intro before o ho
    cases before <;> cases ho
  cases h with
  | request =>
    exact ⟨hb.get?_nextTask, serve_follows _ _ _, hnone none, fun _ => ⟨_, rfl, rfl⟩,
      fun _ h => by cases h⟩
  | turn ht hturn =>
    refine ⟨ht, stepTurn_follows _ hturn, hnone _, fun h => (by cases h), ?_⟩
    rintro _ ⟨⟩ hsome
    rw [call?_of_hasTurn hturn] at hsome
    cases hsome
  | reply ht hcall hadmits =>
    refine ⟨ht, stepReply_follows _ _ _ ?_, fresh_of_admits hcall hadmits, fun h => (by cases h),
      fun _ _ _ => rfl⟩
    rw [hcall]
    rfl

theorem Occurs.registry_after (h : x.Occurs) (hb : x.before.Consistent) :
    x.after.coordinator.registry = x.before.coordinator.registry.after x.calls :=
  (h.taken hb).follows.registry

/-- A task that takes a step for the first time is new. -/
theorem Occurs.begins (h : x.Occurs) (hwas : x.was = none) : x.task = ⟨x.before.nextTask⟩ := by
  cases h with
  | request => rfl
  | turn | reply => cases hwas

/-- A task that has ended takes no step any more. -/
theorem Occurs.ne_of_ended (h : x.Occurs) (hb : x.before.Consistent) {t : TaskId}
    (hnone : x.before.tasks.get? t = none) (hlt : t.number < x.before.nextTask) : x.task ≠ t := by
  rintro rfl
  cases hwas : x.was with
  | some task => cases hnone.symm.trans ((h.taken hb).task.trans hwas)
  | none =>
    have hnew := congrArg TaskId.number (h.begins hwas)
    simp only at hnew
    omega

theorem get?_after (t : TaskId) :
    x.after.tasks.get? t = if x.task = t then x.left else x.before.tasks.get? t :=
  get?_take t

theorem log_after : ∃ more, x.after.log = x.before.log ++ more := by
  rw [after, take, List.append_assoc, List.append_assoc]
  exact ⟨_, rfl⟩

end Episode

/-! ## Runs and their histories -/

theorem run_append_run (actions more : List Action) : b.run (actions ++ more) = (b.run actions).run more :=
  List.foldl_append

theorem history_append (actions more : List Action) :
    b.history (actions ++ more) = b.history actions ++ (b.run actions).history more := by
  induction actions generalizing b with
  | nil => rfl
  | cons a rest ih =>
    simp only [List.cons_append, history, ih, List.append_assoc]
    rfl

theorem history_singleton (a : Action) : b.history [a] = (b.episode? a).toList := by
  simp [history]

/-- An episode of a run was taken in the broadcast that the actions before it lead to. -/
theorem mem_history {actions : List Action} {x : Episode} (h : x ∈ b.history actions) :
    ∃ earlier later, actions = earlier ++ x.action :: later ∧
      (b.run earlier).episode? x.action = some x := by
  induction actions generalizing b with
  | nil => cases h
  | cons a rest ih =>
    rcases List.mem_append.mp h with h | h
    · have hx := Option.mem_toList.mp h
      obtain ⟨_, _, _, rfl⟩ := step?_of_episode? hx
      exact ⟨[], rest, rfl, hx⟩
    · obtain ⟨earlier, later, rfl, hx⟩ := ih h
      exact ⟨a :: earlier, later, rfl, hx⟩

/-- What an episode of a run from the empty broadcast can rely on. -/
theorem occurs_of_mem {actions : List Action} {x : Episode} (h : x ∈ history {} actions) :
    x.Occurs ∧ ∃ earlier later, actions = earlier ++ x.action :: later ∧
      x.before = run {} earlier ∧ x.after = run {} (earlier ++ [x.action]) := by
  obtain ⟨earlier, later, hactions, hx⟩ := mem_history h
  obtain ⟨_, hoccurs, hbefore, _⟩ := step?_of_episode? hx
  refine ⟨hoccurs, earlier, later, hactions, hbefore, ?_⟩
  rw [run_append, step_of_episode? hx]

/-- What holds after a run and is kept by every later step holds of what follows. -/
theorem later_induction {P : List Episode → Broadcast → Prop} (start : List Action)
    {more : List Action} (hstart : P [] (run {} start))
    (hstep : ∀ past x, P past x.before → (∃ earlier, x.before = run {} earlier) → x.Occurs →
      x.action ∈ more → P (past ++ [x]) x.after) :
    P ((run {} start).history more) ((run {} start).run more) := by
  induction more using List.reverseRecOn with
  | nil => exact hstart
  | append_singleton more a ih =>
    have hpast := ih fun past x hp hrun hx hm => hstep past x hp hrun hx (List.mem_append_left _ hm)
    rw [run_append, history_append, history_singleton]
    cases h : ((run {} start).run more).episode? a with
    | none =>
      rw [step_of_no_episode h]
      simpa using hpast
    | some x =>
      obtain ⟨_, hoccurs, hbefore, rfl⟩ := step?_of_episode? h
      rw [step_of_episode? h]
      refine hstep _ x (hbefore ▸ hpast) ⟨start ++ more, ?_⟩ hoccurs (by simp)
      rw [hbefore, run_append_run]

/-- What holds at the beginning and is kept by every step holds of every history and its broadcast. -/
theorem history_induction {P : List Episode → Broadcast → Prop} (hstart : P [] {})
    (hstep : ∀ past x, P past x.before → x.before.Consistent → x.Occurs → P (past ++ [x]) x.after)
    (actions : List Action) : P (history {} actions) (run {} actions) := by
  refine later_induction [] hstart fun past x hp ⟨earlier, hbefore⟩ hx _ => hstep past x hp ?_ hx
  rw [hbefore]
  exact consistent earlier

/-- A task that ended in a step of a run is gone. -/
theorem ended_gone (actions : List Action) : ∀ y ∈ history {} actions, y.left = none →
    y.task.number < (run {} actions).nextTask ∧ (run {} actions).tasks.get? y.task = none := by
  refine history_induction (P := fun past b => ∀ y ∈ past, y.left = none →
    y.task.number < b.nextTask ∧ b.tasks.get? y.task = none) (fun _ hy => by cases hy) ?_ actions
  intro past x hp h hx y hy hended
  have hnext : x.after.nextTask = max x.before.nextTask (x.task.number + 1) := rfl
  rw [x.get?_after]
  rcases List.mem_append.mp hy with hy | hy
  · obtain ⟨hlt, hnone⟩ := hp y hy hended
    exact ⟨by omega, by rw [if_neg (hx.ne_of_ended h hnone hlt), hnone]⟩
  · obtain rfl := List.mem_singleton.mp hy
    exact ⟨by omega, by rw [if_pos rfl, hended]⟩

/-- The log of a run only grows. -/
theorem log_run (b : Broadcast) (later : List Action) : ∃ more, (b.run later).log = b.log ++ more := by
  induction later generalizing b with
  | nil => exact ⟨[], (List.append_nil _).symm⟩
  | cons a later ih =>
    obtain ⟨more, hmore⟩ := ih (b.step a)
    rw [show b.run (a :: later) = (b.step a).run later from rfl, hmore]
    cases hepisode : b.episode? a with
    | none => exact ⟨more, by rw [step_of_no_episode hepisode]⟩
    | some x =>
      obtain ⟨_, _, hbefore, _⟩ := step?_of_episode? hepisode
      obtain ⟨now, hnow⟩ := x.log_after
      rw [step_of_episode? hepisode, hnow, hbefore]
      exact ⟨now ++ more, List.append_assoc _ _ _⟩

/-- A run goes on after each of its steps, and its history is cut there. -/
theorem history_split {actions : List Action} {x : Episode} (hx : x ∈ history {} actions) :
    ∃ earlier later, x.before = run {} earlier ∧ x.after = run {} (earlier ++ [x.action]) ∧
      run {} actions = x.after.run later ∧
      history {} actions = history {} earlier ++ x :: x.after.history later := by
  obtain ⟨earlier, later, rfl, hepisode⟩ := mem_history hx
  have hafter := step_of_episode? hepisode
  obtain ⟨_, _, hbefore, _⟩ := step?_of_episode? hepisode
  refine ⟨earlier, later, hbefore, by rw [run_append, hafter], ?_, ?_⟩
  · rw [run_append_run, ← hafter]
    rfl
  · rw [history_append, history, hepisode, hafter]
    rfl

end Rostrum.Broadcast
