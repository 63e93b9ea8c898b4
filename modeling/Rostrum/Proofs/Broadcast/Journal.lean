import Mathlib.Tactic.Abel
import Rostrum.Proofs.Broadcast.Balance

/-!
# What the log says of objects

The log shows which objects were made and for which attempt, which calls name an object, and which
objects were released. A release is asked for by a task that takes something down, or it concerns the
mix.
-/

namespace Rostrum

def EngineCall.released? {L : Type} : EngineCall L → Option ObjectId
  | .release object => some object
  | _ => none

theorem EngineCall.mem_objects_of_released {L : Type} {call : EngineCall L} {id : ObjectId}
    (h : call.released? = some id) : id ∈ call.objects := by
  unfold released? at h
  split at h <;> cases h
  exact List.mem_singleton_self _

namespace Broadcast

/-- The objects that the call of an event names. -/
def Event.names : Event → List ObjectId
  | .issued _ task => (task.call?.map EngineCall.objects).getD []
  | _ => []

/-- The object whose release an event asks for. -/
def Event.released? : Event → Option ObjectId
  | .issued _ task => task.call?.bind EngineCall.released?
  | _ => none

/-- The object whose release an event asks for when something is taken down. -/
def Event.disposed? : Event → Option ObjectId
  | .issued _ task => task.teardown?.map Teardown.object
  | _ => none

def Event.madeFor : Event → List (Attempt × ObjectKind × ObjectId)
  | .replied _ task reply => madeForBy (some task) (some reply)
  | _ => []

def releases (log : List Event) : List ObjectId := log.filterMap Event.released?

def disposed (log : List Event) : List ObjectId := log.filterMap Event.disposed?

/-- The objects that were made for negotiations, with the attempt of each. -/
def madeFor (log : List Event) : List (Attempt × ObjectKind × ObjectId) := log.flatMap Event.madeFor

/-- What a step adds to the log. -/
def takeEvents (r : Registry) (t : TaskId) (before : Option Task) (reply : Option Reply)
    (calls : List Registry.Call) (after : Option Task) : List Event :=
  repliedEvents t before reply ++ (r.log calls).map .called ++ issuedEvents t after

end Broadcast

theorem Task.call?_of_teardown? {task : Task} {d : Teardown} (h : task.teardown? = some d) :
    task.call? = some (.release d.object) := by
  unfold teardown? at h
  split at h <;> cases h <;> rfl

theorem MixRequest.names {L : Type} {stage : MixRequest} {call : EngineCall L}
    (hcall : stage.call? = some call) {id : ObjectId} (h : id ∈ call.objects) :
    ∃ kind, (kind, id) ∈ stage.objects := by
  cases stage with
  | waiting => cases hcall
  | creatingPipeline =>
    cases hcall
    cases h
  | creatingMixer pipeline | undoing pipeline fault =>
    cases hcall
    exact ⟨.pipeline, by simpa [objects, EngineCall.objects] using h⟩

theorem MixWithdrawal.names {L : Type} {stage : MixWithdrawal} {call : EngineCall L}
    (hcall : stage.call? = some call) {id : ObjectId} (h : id ∈ call.objects) :
    ∃ kind, (kind, id) ∈ stage.objects := by
  cases stage with
  | waiting => cases hcall
  | releasingMixer mix =>
    cases hcall
    exact ⟨.mixer, by simpa [objects, SharedMix.objects, EngineCall.objects] using h⟩
  | releasingPipeline mix =>
    cases hcall
    exact ⟨.pipeline, by simpa [objects, SharedMix.objects, EngineCall.objects] using h⟩

namespace Broadcast

/-- What the call of a negotiation names belongs to the mix, or its entry holds it. -/
theorem negotiation_names {r : Registry} (w : r.WellFormed) {n : Negotiation}
    {stage : NegotiationStage} (hlive : stage.isLive) (hentry : HasEntry r n stage)
    {call : EngineCall SessionId} (hcall : stage.call? n = some call) {id : ObjectId}
    (h : id ∈ call.objects) : (∃ kind, (kind, id) ∈ stage.mixObjects) ∨ id ∈ r.objects := by
  obtain ⟨e, he, _, hfits⟩ := hentry
  have hm := (w.mem_of_attempt? he).1
  have hendpoint : ∀ {endpoint : Endpoint}, e.endpoint = some endpoint → endpoint.id ∈ r.objects :=
    fun hep => Registry.mem_objects hm (Entry.mem_objects_iff.mpr (Or.inr hep))
  have hport : ∀ {port : MixerPort}, e.port = some port → port.id ∈ r.objects :=
    fun hp => Registry.mem_objects hm (Entry.mem_objects_iff.mpr (Or.inl hp))
  cases stage with
  | prepared => cases hcall
  | releasing => cases hlive
  | obtainingMix request => exact Or.inl (request.names hcall h)
  | creatingEndpoint mix =>
    cases hcall
    refine Or.inl ⟨.pipeline, ?_⟩
    simpa [NegotiationStage.mixObjects, SharedMix.objects, EngineCall.objects] using h
  | creatingPort mix endpoint =>
    cases hcall
    refine Or.inl ⟨.mixer, ?_⟩
    simpa [NegotiationStage.mixObjects, SharedMix.objects, EngineCall.objects] using h
  | connecting endpoint port =>
    have hids : id = endpoint.id ∨ id = port.id := by
      simp only [NegotiationStage.call?] at hcall
      cases hrole : n.role <;> rw [hrole] at hcall <;> cases hcall <;>
        simpa [EngineCall.objects, or_comm] using h
    rcases hids with rfl | rfl
    · exact Or.inr (hendpoint hfits.1)
    · exact Or.inr (hport hfits.2.1)
  | applying endpoint | subscribing endpoint | offering endpoint | gathering endpoint =>
    cases hcall
    obtain rfl : id = endpoint.id := by simpa [EngineCall.objects] using h
    exact Or.inr (hendpoint hfits.1)

/-- What a task names belongs to the mix, is stored, or is released by it. -/
theorem names_cases {r : Registry} (w : r.WellFormed) {t : TaskId} {task : Task}
    (hentry : ∀ n stage, task = .negotiation n stage → stage.isLive → HasEntry r n stage)
    (happly : ∀ s endpoint c, task = .apply s endpoint c → endpoint.id ∈ r.objects)
    {id : ObjectId} (h : id ∈ (Event.issued t task).names) :
    (∃ kind, (kind, id) ∈ task.mixObjects) ∨ id ∈ r.objects ∨
      (Event.issued t task).disposed? = some id := by
  obtain ⟨call, hcall, hid⟩ : ∃ call, task.call? = some call ∧ id ∈ call.objects := by
    cases hcall : task.call? with
    | none => simp [Event.names, hcall] at h
    | some call => exact ⟨call, rfl, by simpa [Event.names, hcall] using h⟩
  have hteardown : ∀ {d : Teardown}, task.teardown? = some d →
      (Event.issued t task).disposed? = some id := by
    intro d hd
    rw [Task.call?_of_teardown? hd] at hcall
    cases hcall
    obtain rfl := List.mem_singleton.mp hid
    rw [Event.disposed?, hd]
    rfl
  cases task with
  | negotiation n stage =>
    by_cases hlive : stage.isLive
    · rcases negotiation_names w hlive (hentry n stage rfl hlive) hcall hid with ⟨kind, hm⟩ | hm
      · exact Or.inl ⟨kind, List.mem_append_right _ hm⟩
      · exact Or.inr (Or.inl hm)
    · cases stage with
      | releasing => exact Or.inr (Or.inr (hteardown rfl))
      | _ => exact absurd rfl hlive
  | stop => exact Or.inr (Or.inr (hteardown rfl))
  | apply s endpoint c =>
    cases hcall
    obtain rfl := List.mem_singleton.mp hid
    exact Or.inr (Or.inl (happly s endpoint c rfl))
  | shutdown stage =>
    cases stage with
    | stopping => exact Or.inr (Or.inr (hteardown rfl))
    | withdrawing stage => exact Or.inl (stage.names hcall hid)
  | mixRequest stage => exact Or.inl (stage.names hcall hid)
  | mixWithdrawal stage => exact Or.inl (stage.names hcall hid)

/-- A candidate that goes straight to an endpoint goes to that of the current entry of its session. -/
theorem Move.apply_entry {r : Registry} {before : Option Task} {reply : Option Reply}
    {calls : List Registry.Call} {s : SessionId} {endpoint : Endpoint} {c : Candidate}
    (m : Move r before reply calls (some (.apply s endpoint c))) :
    ∃ e, Registry.entry? (r.after calls) s = some e ∧ e.endpoint = some endpoint := by
  have hno : ∀ {d es}, ¬ Disposes d es (some (.apply s endpoint c)) := by
    intro d es hd
    cases hd with
    | goesOn _ ht | begins _ _ _ ht => cases ht
    | ends _ _ hmix => cases hmix _ rfl
  cases m with
  | disposes _ hd | givesUp _ _ hd => exact (hno hd).elim
  | applies hans =>
    have ho := r.perform_outcome (.submit s c)
    rw [hans] at ho
    change ∃ e, Registry.entry? (r.next (.submit s c)) s = some e ∧ e.endpoint = some endpoint
    generalize r.next _ = r' at *
    cases ho with
    | applied he _ _ hep => exact ⟨_, he, hep⟩

theorem Move.apply_stored {r : Registry} {before : Option Task} {reply : Option Reply}
    {calls : List Registry.Call} {s : SessionId} {endpoint : Endpoint} {c : Candidate}
    (m : Move r before reply calls (some (.apply s endpoint c))) :
    endpoint.id ∈ (r.after calls).objects := by
  obtain ⟨e, he, hep⟩ := m.apply_entry
  exact Registry.mem_objects (Registry.mem_entries_of_current he)
    (Entry.mem_objects_iff.mpr (Or.inr hep))

/-- An element of two lists stands in the one or in the other. -/
theorem split_append {α : Type} {old new earlier later : List α} {x : α}
    (h : old ++ new = earlier ++ x :: later) :
    (∃ more, old = earlier ++ x :: more ∧ later = more ++ new) ∨
      ∃ more, earlier = old ++ more ∧ new = more ++ x :: later := by
  rcases List.append_eq_append_iff.mp h with ⟨more, hearlier, hnew⟩ | ⟨more, hold, hlater⟩
  · exact Or.inr ⟨more, hearlier, hnew⟩
  · cases more with
    | nil =>
      rw [List.append_nil] at hold
      rw [List.nil_append] at hlater
      exact Or.inr ⟨[], by rw [List.append_nil, hold], hlater.symm⟩
    | cons y more =>
      obtain ⟨rfl, hrest⟩ := List.cons.inj hlater
      exact Or.inl ⟨more, hold, hrest⟩

theorem repliedEvents_cases (t : TaskId) (before : Option Task) (reply : Option Reply) :
    repliedEvents t before reply = [] ∧ brought before reply = [] ∧ madeForBy before reply = [] ∨
      ∃ task reply', before = some task ∧ reply = some reply' ∧
        repliedEvents t before reply = [.replied t task reply'] := by
  cases before with
  | none => exact Or.inl ⟨rfl, rfl, rfl⟩
  | some task =>
    cases reply with
    | none => exact Or.inl ⟨rfl, rfl, by cases task <;> rfl⟩
    | some reply => exact Or.inr ⟨task, reply, rfl, rfl, rfl⟩

theorem issuedEvents_cases (t : TaskId) (after : Option Task) :
    (issuedEvents t after = [] ∧ ∀ task, after = some task → task.call? = none) ∨
      ∃ task, after = some task ∧ issuedEvents t after = [.issued t task] := by
  cases after with
  | none => exact Or.inl ⟨rfl, fun _ h => by cases h⟩
  | some task =>
    by_cases hcall : task.call?.isSome
    · exact Or.inr ⟨task, rfl, if_pos hcall⟩
    · refine Or.inl ⟨if_neg hcall, ?_⟩
      rintro _ ⟨⟩
      exact Option.not_isSome_iff_eq_none.mp hcall

/-- The events of a step: a reply, calls to the registry, and a call to the engine. -/
theorem mem_takeEvents {r : Registry} {t : TaskId} {before : Option Task} {reply : Option Reply}
    {calls : List Registry.Call} {after : Option Task} {event : Event}
    (h : event ∈ takeEvents r t before reply calls after) :
    (∃ task reply', event = .replied t task reply') ∨ (∃ d ∈ r.log calls, event = .called d) ∨
      ∃ task, after = some task ∧ event = .issued t task := by
  rcases List.mem_append.mp h with h | h
  · rcases List.mem_append.mp h with h | h
    · rcases repliedEvents_cases t before reply with ⟨hnone, _⟩ | ⟨task, reply', _, _, hone⟩
      · rw [hnone] at h
        cases h
      · rw [hone] at h
        exact Or.inl ⟨task, reply', List.mem_singleton.mp h⟩
    · obtain ⟨d, hd, rfl⟩ := List.mem_map.mp h
      exact Or.inr (Or.inl ⟨d, hd, rfl⟩)
  · rcases issuedEvents_cases t after with ⟨hnone, _⟩ | ⟨task, hafter, hone⟩
    · rw [hnone] at h
      cases h
    · rw [hone] at h
      exact Or.inr (Or.inr ⟨task, hafter, List.mem_singleton.mp h⟩)

theorem replied_of_mem_takeEvents {r : Registry} {t : TaskId} {before : Option Task}
    {reply : Option Reply} {calls : List Registry.Call} {after : Option Task} {t' : TaskId} {task : Task}
    {reply' : Reply} (h : .replied t' task reply' ∈ takeEvents r t before reply calls after) :
    t' = t ∧ before = some task ∧ reply = some reply' := by
  rcases List.mem_append.mp h with h | h
  · rcases List.mem_append.mp h with h | h
    · rcases repliedEvents_cases t before reply with ⟨hnone, _⟩ | ⟨task₀, reply₀, hb, hr, hone⟩
      · rw [hnone] at h
        cases h
      · rw [hone] at h
        cases List.mem_singleton.mp h
        exact ⟨rfl, hb, hr⟩
    · obtain ⟨_, _, heq⟩ := List.mem_map.mp h
      cases heq
  · rcases issuedEvents_cases t after with ⟨hnone, _⟩ | ⟨_, _, hone⟩
    · rw [hnone] at h
      cases h
    · rw [hone] at h
      cases List.mem_singleton.mp h

theorem issued_of_mem_takeEvents {r : Registry} {t : TaskId} {before : Option Task}
    {reply : Option Reply} {calls : List Registry.Call} {after : Option Task} {t' : TaskId} {task : Task}
    (h : .issued t' task ∈ takeEvents r t before reply calls after) :
    t' = t ∧ after = some task ∧ task.call?.isSome := by
  rcases mem_takeEvents h with ⟨_, _, heq⟩ | ⟨_, _, heq⟩ | ⟨task', hafter, heq⟩ <;> cases heq
  refine ⟨rfl, hafter, ?_⟩
  by_contra hno
  have hnone : issuedEvents t after = [] := by
    rw [hafter]
    exact if_neg hno
  rw [takeEvents, hnone, List.append_nil] at h
  rcases List.mem_append.mp h with h | h
  · rcases repliedEvents_cases t before reply with ⟨hr, _⟩ | ⟨_, _, _, _, hr⟩ <;> simp [hr] at h
  · obtain ⟨_, _, heq⟩ := List.mem_map.mp h
    cases heq

/-- Only the last event of a step is a call to the engine. -/
theorem takeEvents_pairwise {r : Registry} {t : TaskId} {before : Option Task} {reply : Option Reply}
    {calls : List Registry.Call} {after : Option Task} :
    (takeEvents r t before reply calls after).Pairwise fun event _ =>
      ∀ t' task, event ≠ .issued t' task := by
  have hfirst : ∀ event ∈ repliedEvents t before reply ++ (r.log calls).map .called,
      ∀ t' task, event ≠ .issued t' task := by
    rintro _ he t' task rfl
    have he' : .issued t' task ∈ takeEvents r t before reply calls none := List.mem_append_left _ he
    rcases mem_takeEvents he' with ⟨_, _, h⟩ | ⟨_, _, h⟩ | ⟨_, h, _⟩ <;> cases h
  refine List.pairwise_append.mpr ⟨?_, ?_, fun event he _ _ => hfirst event he⟩
  · exact List.pairwise_of_forall_mem_list fun event he _ _ => hfirst event he
  · rcases issuedEvents_cases t after with ⟨hnone, _⟩ | ⟨task, _, hone⟩
    · rw [hnone]
      exact List.Pairwise.nil
    · rw [hone]
      exact List.pairwise_singleton _ _

theorem issued_of_disposed {event : Event} {id : ObjectId} (h : event.disposed? = some id) :
    ∃ t task, event = .issued t task := by
  cases event with
  | called | replied => cases h
  | issued t task => exact ⟨t, task, rfl⟩

theorem released_of_disposed {event : Event} {id : ObjectId} (h : event.disposed? = some id) :
    event.released? = some id := by
  cases event with
  | called | replied => cases h
  | issued t task =>
    obtain ⟨d, hd, rfl⟩ := Option.map_eq_some_iff.mp h
    change task.call?.bind EngineCall.released? = some d.object
    rw [Task.call?_of_teardown? hd]
    rfl

section Logs
variable (b : Broadcast) (t : TaskId) (before : Option Task) (reply : Option Reply)
  (calls : List Registry.Call) (result : StepResult)

theorem log_take : (b.take t before reply calls result).log =
    b.log ++ takeEvents b.coordinator.registry t before reply calls result.task.ongoing? := by
  simp [take, takeEvents]

theorem made_take : made (b.take t before reply calls result).log =
    made b.log ++ brought before reply := by
  rw [log_take, made, takeEvents, List.filterMap_append, List.filterMap_append, List.filterMap_append,
    List.filterMap_map]
  have hissued : (issuedEvents t result.task.ongoing?).filterMap Event.made? = [] := by
    rcases issuedEvents_cases t result.task.ongoing? with ⟨h, _⟩ | ⟨task, _, h⟩ <;> rw [h] <;> rfl
  have hreplied : (repliedEvents t before reply).filterMap Event.made? = brought before reply := by
    rcases repliedEvents_cases t before reply with ⟨h, hbrought, _⟩ | ⟨task, reply, rfl, rfl, h⟩
    · rw [h, hbrought]
      rfl
    · rw [h]
      cases hmade : madeBy task reply <;> simp [Event.made?, brought, hmade]
  rw [hissued, hreplied]
  simp [made, Function.comp_def, Event.made?]

theorem madeFor_take : madeFor (b.take t before reply calls result).log =
    madeFor b.log ++ madeForBy before reply := by
  rw [log_take, madeFor, takeEvents, List.flatMap_append, List.flatMap_append, List.flatMap_append,
    List.flatMap_map]
  have hissued : (issuedEvents t result.task.ongoing?).flatMap Event.madeFor = [] := by
    rcases issuedEvents_cases t result.task.ongoing? with ⟨h, _⟩ | ⟨task, _, h⟩ <;> rw [h] <;> rfl
  have hreplied : (repliedEvents t before reply).flatMap Event.madeFor = madeForBy before reply := by
    rcases repliedEvents_cases t before reply with ⟨h, _, hfor⟩ | ⟨task, reply, rfl, rfl, h⟩
    · rw [h, hfor]
      rfl
    · rw [h]
      exact List.append_nil _
  rw [hissued, hreplied]
  simp [madeFor, Event.madeFor]

/-- What the calls of a run show grows by what the call of a step shows. -/
theorem issued_take {β : Type} {f : Event → Option β} {g : Task → Option β}
    (hcalled : ∀ d, f (.called d) = none) (hreplied : ∀ t task reply, f (.replied t task reply) = none)
    (hissued : ∀ t task, f (.issued t task) = g task) (hg : ∀ task, task.call? = none → g task = none) :
    (b.take t before reply calls result).log.filterMap f =
      b.log.filterMap f ++ (result.task.ongoing?.bind g).toList := by
  rw [log_take, takeEvents, List.filterMap_append, List.filterMap_append, List.filterMap_append,
    List.filterMap_map]
  have hlast : (issuedEvents t result.task.ongoing?).filterMap f =
      (result.task.ongoing?.bind g).toList := by
    rcases issuedEvents_cases t result.task.ongoing? with ⟨h, hnone⟩ | ⟨task, hafter, h⟩
    · rw [h]
      cases hafter : result.task.ongoing? with
      | none => rfl
      | some task => simp [hg task (hnone task hafter)]
    · rw [h, hafter]
      cases hd : g task <;> simp [hissued, hd]
  have hfirst : (repliedEvents t before reply).filterMap f = [] := by
    rcases repliedEvents_cases t before reply with ⟨h, _⟩ | ⟨task, reply, _, _, h⟩ <;> rw [h]
    · rfl
    · simp [hreplied]
  rw [hlast, hfirst]
  simp [hcalled]

theorem disposed_take : disposed (b.take t before reply calls result).log =
    disposed b.log ++ releasedBy result.task.ongoing? := by
  have hno : ∀ task : Task, task.call? = none → task.teardown?.map Teardown.object = none := by
    intro task hnone
    cases hd : task.teardown? with
    | none => rfl
    | some d =>
      rw [Task.call?_of_teardown? hd] at hnone
      cases hnone
  have htake := issued_take b t before reply calls result (fun d => show Event.disposed? (.called d) = none
    from rfl) (fun _ _ _ => rfl) (fun _ _ => rfl) hno
  exact htake.trans (by cases result.task.ongoing? <;> rfl)

variable {b t before reply calls result}

theorem madeFor_subset_take : madeFor b.log ⊆ madeFor (b.take t before reply calls result).log := by
  rw [madeFor_take]
  exact List.subset_append_left _ _

/-- A call that the log shows after a step was shown before, or the acting task waits for it now. -/
theorem issued_cases_take {t' : TaskId} {task : Task}
    (h : .issued t' task ∈ (b.take t before reply calls result).log) :
    .issued t' task ∈ b.log ∨ t' = t ∧ result.task.ongoing? = some task ∧ task.call?.isSome := by
  rw [log_take] at h
  exact (List.mem_append.mp h).imp_right issued_of_mem_takeEvents

end Logs

theorem madeFor_sublist (log : List Event) : ((madeFor log).map Prod.snd).Sublist (made log) := by
  induction log with
  | nil => exact List.Sublist.slnil
  | cons event log ih =>
    have hfor : madeFor (event :: log) = event.madeFor ++ madeFor log := rfl
    have hmade : made (event :: log) = event.made?.toList ++ made log := by
      unfold made
      cases h : event.made? <;> simp [h]
    rw [hfor, hmade, List.map_append]
    refine List.Sublist.append ?_ ih
    cases event with
    | called | issued => exact List.nil_sublist _
    | replied t task reply =>
      cases task with
      | negotiation n stage => simp [Event.madeFor, madeForBy, Event.made?, Function.comp_def]
      | _ => exact List.nil_sublist _

theorem madeForBy_live {before : Option Task} {reply : Option Reply} {a : Attempt}
    {o : ObjectKind × ObjectId} (h : (a, o) ∈ madeForBy before reply) :
    ∃ n stage, before = some (.negotiation n stage) ∧ stage.isLive ∧ n.attempt = a := by
  obtain ⟨n, stage, rfl, ha, ho⟩ := madeForBy_origin h
  refine ⟨n, stage, rfl, ?_, ha⟩
  cases stage with
  | releasing =>
    cases reply with
    | none => cases ho
    | some reply => cases reply <;> cases ho
  | _ => rfl

theorem mem_brought_of_madeForBy {before : Option Task} {reply : Option Reply} {a : Attempt}
    {o : ObjectKind × ObjectId} (h : (a, o) ∈ madeForBy before reply) : o ∈ brought before reply := by
  obtain ⟨_, _, _, _, ho⟩ := madeForBy_origin h
  exact ho

/-- What tasks release later. -/
def waiting (b : Broadcast) : Multiset ObjectId :=
  b.tasks.contents.bind fun task => (restOf (some task) : Multiset ObjectId)

theorem mem_waiting {b : Broadcast} {t : TaskId} {task : Task} (ht : b.tasks.get? t = some task)
    {id : ObjectId} (h : id ∈ restOf (some task)) : id ∈ b.waiting :=
  Multiset.mem_bind.mpr ⟨task, Table.mem_contents ht, Multiset.mem_coe.mpr h⟩

theorem tasks_take {b : Broadcast} (hd : b.tasks.Distinct) {t : TaskId} {before : Option Task}
    (hbefore : b.tasks.get? t = before) (reply : Option Reply) (calls : List Registry.Call)
    (result : StepResult) :
    (b.take t before reply calls result).tasks.contents + (before.toList : Multiset Task) =
      b.tasks.contents + (result.task.ongoing?.toList : Multiset Task) := by
  -- the acting task is set apart from the others, before the step and after it
  have hold : b.tasks.contents = before.toList + (b.tasks.erase t).contents := by
    cases hb : before with
    | none =>
      rw [Table.erase_of_get?_eq_none (hbefore.trans hb)]
      exact (zero_add _).symm
    | some task => exact Table.contents_of_get? hd (hbefore.trans hb)
  have hnew : (b.take t before reply calls result).tasks.contents =
      result.task.ongoing?.toList + (b.tasks.erase t).contents := by
    unfold take
    cases result.task.ongoing? with
    | none => exact (zero_add _).symm
    | some task => exact Table.contents_put hd _ _
  rw [hold, hnew]
  abel

/-- What tasks have of something changes in a step by what the acting task has. -/
theorem bind_take {β : Type} {b : Broadcast} (hd : b.tasks.Distinct) {t : TaskId}
    {before : Option Task} (hbefore : b.tasks.get? t = before) (reply : Option Reply)
    (calls : List Registry.Call) (result : StepResult) (f : Task → Multiset β) :
    (b.take t before reply calls result).tasks.contents.bind f + (before.toList : Multiset Task).bind f =
      b.tasks.contents.bind f + (result.task.ongoing?.toList : Multiset Task).bind f := by
  rw [← Multiset.add_bind, tasks_take hd hbefore, Multiset.add_bind]

theorem waiting_take {b : Broadcast} (hd : b.tasks.Distinct) {t : TaskId} {before : Option Task}
    (hbefore : b.tasks.get? t = before) (reply : Option Reply) (calls : List Registry.Call)
    (result : StepResult) :
    (b.take t before reply calls result).waiting + (restOf before : List ObjectId) =
      b.waiting + (restOf result.task.ongoing? : List ObjectId) := by
  have hrest : ∀ task : Option Task, (restOf task : Multiset ObjectId) =
      (task.toList : Multiset Task).bind fun task => (restOf (some task) : Multiset ObjectId) := by
    intro task
    cases task with
    | none => rfl
    | some task => exact (Multiset.singleton_bind _ _).symm
  rw [hrest before, hrest result.task.ongoing?]
  exact bind_take hd hbefore reply calls result _

theorem not_isMedia_of_mem_mix {mix : SharedMix} {o : ObjectKind × ObjectId} (h : o ∈ mix.objects) :
    o.1.isMedia = false := by
  rcases List.mem_cons.mp h with rfl | h
  · rfl
  · obtain rfl := List.mem_singleton.mp h
    rfl

theorem not_isMedia_of_mem_request {stage : MixRequest} {o : ObjectKind × ObjectId}
    (h : o ∈ stage.objects) : o.1.isMedia = false := by
  cases stage with
  | waiting | creatingPipeline => cases h
  | creatingMixer | undoing =>
    obtain rfl := List.mem_singleton.mp h
    rfl

theorem not_isMedia_of_mem_withdrawal {stage : MixWithdrawal} {o : ObjectKind × ObjectId}
    (h : o ∈ stage.objects) : o.1.isMedia = false := by
  cases stage with
  | waiting => cases h
  | releasingMixer mix | releasingPipeline mix => exact not_isMedia_of_mem_mix h

theorem not_isMedia_of_mem {task : Task} {o : ObjectKind × ObjectId} (h : o ∈ task.mixObjects) :
    o.1.isMedia = false := by
  cases task with
  | negotiation n stage =>
    rcases List.mem_append.mp h with h | h
    · obtain ⟨mix, _, hm⟩ := List.mem_flatMap.mp h
      exact not_isMedia_of_mem_mix hm
    · cases stage with
      | obtainingMix request => exact not_isMedia_of_mem_request h
      | creatingEndpoint mix | creatingPort mix => exact not_isMedia_of_mem_mix h
      | _ => cases h
  | shutdown stage =>
    cases stage with
    | stopping => cases h
    | withdrawing stage => exact not_isMedia_of_mem_withdrawal h
  | mixRequest stage => exact not_isMedia_of_mem_request h
  | mixWithdrawal stage => exact not_isMedia_of_mem_withdrawal h
  | _ => cases h

/-- A task that asks for a release takes something down, or undoes the mix. -/
theorem released_cases {t : TaskId} {task : Task} {id : ObjectId}
    (h : (Event.issued t task).released? = some id) :
    (Event.issued t task).disposed? = some id ∨ ∃ kind, (kind, id) ∈ task.mixObjects := by
  obtain ⟨call, hcall, hreleased⟩ := Option.bind_eq_some_iff.mp h
  have hid := EngineCall.mem_objects_of_released hreleased
  cases task with
  | negotiation n stage =>
    cases stage with
    | releasing => exact Or.inl h
    | obtainingMix request =>
      obtain ⟨kind, hm⟩ := request.names hcall hid
      exact Or.inr ⟨kind, List.mem_append_right _ hm⟩
    | connecting endpoint port =>
      cases hrole : n.role <;>
        simp [Event.released?, Task.call?, NegotiationStage.call?, hrole, EngineCall.released?] at h
    | _ => cases h
  | stop => exact Or.inl h
  | apply => cases h
  | shutdown stage =>
    cases stage with
    | stopping => exact Or.inl h
    | withdrawing stage => exact Or.inr (stage.names hcall hid)
  | mixRequest stage => exact Or.inr (stage.names hcall hid)
  | mixWithdrawal stage => exact Or.inr (stage.names hcall hid)

end Broadcast

end Rostrum
