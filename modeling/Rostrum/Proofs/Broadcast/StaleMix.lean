import Rostrum.Proofs.Broadcast.Listening
import Rostrum.Proofs.Broadcast.Undisturbed

/-!
# A mix that was withdrawn meanwhile

A negotiation knows its mix before it has an endpoint: a viewer from the moment it asks, a presenter from
the moment its request for the mix returns. While the engine makes the endpoint, the mix may be withdrawn
and another one may be published in its place. So the mix is looked at once more when the endpoint is
there. If it is the published one, nothing of it was released, and the negotiation builds on it; if it is
not, nothing is built, and the endpoint is released.
-/

namespace Rostrum

/-- The mix that a negotiation is to build on, as long as it has no port. -/
def NegotiationStage.mix? (n : Negotiation) : NegotiationStage → Option SharedMix
  | .prepared => n.snapshot
  | .creatingEndpoint mix => some mix
  | .creatingPort mix _ => some mix
  | _ => none

/-- Whether a call joins an endpoint to the mix. -/
def EngineCall.builds {L : Type} : EngineCall L → Bool
  | .createPort _ => true
  | .connect _ _ => true
  | _ => false

namespace NegotiationStage

/-- Whether the endpoint of a negotiation is not there yet. -/
def isBare : NegotiationStage → Bool
  | .prepared => true
  | .obtainingMix _ => true
  | .creatingEndpoint _ => true
  | _ => false

theorem isLive_of_isBare {stage : NegotiationStage} (h : stage.isBare) : stage.isLive := by
  cases stage <;> first | rfl | cases h

theorem isBare_of_seeksMix {stage : NegotiationStage} (h : stage.seeksMix) : stage.isBare := by
  cases stage <;> first | rfl | cases h

theorem builds_of_isBare {stage : NegotiationStage} (h : stage.isBare) {n : Negotiation}
    {call : EngineCall SessionId} (hcall : stage.call? n = some call) : call.builds = false := by
  cases stage with
  | obtainingMix request => cases request <;> cases hcall <;> rfl
  | prepared | creatingEndpoint => cases hcall <;> rfl
  | _ => cases h

end NegotiationStage

namespace Coordinator
variable {c : Coordinator} {n : Negotiation}

/-- When its endpoint is made, a negotiation goes on with the published mix, or it gives up. -/
theorem endpointMade_cases (w : c.registry.WellFormed) {e : Entry}
    (he : c.registry.attempt? n.session n.attempt = some e) (mix : SharedMix) (endpoint : Endpoint) :
    (¬ e.stopped ∧ c.mix.published = some mix ∧ (c.endpointMade n mix endpoint).task =
      .ongoing (.negotiation n (.creatingPort mix endpoint))) ∨
    ∃ (c' : Coordinator) (fault : NegotiationFault) (e' : Entry),
      c.endpointMade n mix endpoint = c'.giveUp n fault e' e'.objects ∧
      e' = { e with endpoint := some endpoint } ∧
      (e.stopped → fault = .stopped) ∧
      (¬ e.stopped → fault = mixGone n.role ∧ c.mix.published ≠ some mix) := by
  have hnoted := w.attempt?_setEndpoint he endpoint
  rw [Registry.next_setEndpoint] at hnoted
  have hset : (c.registry.setEndpoint n.session n.attempt endpoint).1 =
      if e.stopped then .error .stopped else .ok () := by
    simp only [Registry.setEndpoint, Registry.note, he]
  unfold endpointMade
  generalize c.registry.setEndpoint n.session n.attempt endpoint = noted at hnoted hset
  obtain ⟨result, registry⟩ := noted
  obtain rfl : result = _ := hset
  by_cases hs : e.stopped
  · rw [if_pos hs]
    refine Or.inr ⟨_, _, _, abort_eq hnoted _, rfl, fun _ => rfl, fun hno => (hno hs).elim⟩
  · rw [if_neg hs]
    by_cases hcurrent : c.mix.published = some mix
    · refine Or.inl ⟨hs, hcurrent, ?_⟩
      simp [MixCell.isCurrent, hcurrent, advance]
    · have habort := abort_eq (c := { c with registry := registry }) hnoted (mixGone n.role)
      refine Or.inr ⟨_, _, _, Eq.trans ?_ habort, rfl, fun hstopped => (hs hstopped).elim,
        fun _ => ⟨rfl, hcurrent⟩⟩
      simp [MixCell.isCurrent, hcurrent]

end Coordinator

namespace Broadcast

theorem marked_iff_stopped {actions : List Action} {e : Entry}
    (he : e ∈ (run {} actions).coordinator.registry.entries) :
    (run {} actions).Marked e.attempt ↔ e.stopped := by
  refine ⟨fun hmarked => (stopped_of_marked hmarked e he rfl).1, fun hs => ?_⟩
  obtain ⟨calls, hdeeds, hreg⟩ := traced actions
  rw [Marked, hdeeds]
  exact Registry.marked_of_stopped (hreg ▸ he) hs

/-- A mix that a negotiation is to build on is published, or the release of its mixer was asked for. -/
def Founded (b : Broadcast) : Prop :=
  ∀ t n stage mix, b.tasks.get? t = some (.negotiation n stage) → stage.mix? n = some mix →
    b.coordinator.mix.published = some mix ∨ mix.mixer.id ∈ releases b.log

namespace Episode
variable {x : Episode}

theorem mem_log_of_issues {call : EngineCall SessionId} (h : x.issues? = some call) :
    ∃ task, x.left = some task ∧ task.call? = some call ∧ .issued x.task task ∈ x.after.log := by
  obtain ⟨task, hleft, hcall⟩ := Option.bind_eq_some_iff.mp h
  have hongoing : x.result.task.ongoing? = some task := hleft
  refine ⟨task, hleft, hcall, ?_⟩
  rw [after, log_take, takeEvents, hongoing]
  simp [issuedEvents, hcall]

theorem mem_releases_of_issues {call : EngineCall SessionId} {id : ObjectId}
    (h : x.issues? = some call) (hid : call.released? = some id) : id ∈ releases x.after.log := by
  obtain ⟨task, _, hcall, hm⟩ := mem_log_of_issues h
  refine List.mem_filterMap.mpr ⟨_, hm, ?_⟩
  change task.call?.bind EngineCall.released? = _
  rw [hcall]
  exact hid

theorem releases_subset : releases x.before.log ⊆ releases x.after.log := by
  obtain ⟨more, hlog⟩ := x.log_after
  rw [hlog, releases, releases, List.filterMap_append]
  exact List.subset_append_left _ _

namespace Occurs
variable (hx : x.Occurs) (h : x.before.Consistent)
include hx h

theorem published_or_withdrawn (hl : x.before.Locked) {mix : SharedMix}
    (hp : x.before.coordinator.mix.published = some mix) :
    x.after.coordinator.mix.published = some mix ∨ mix.mixer.id ∈ Broadcast.releases x.after.log := by
  rcases (hx.mix_turn h).keeps_published hl.agree (hl.inside x.task) hp with hwithdraws | ⟨hsame, _⟩
  · rw [x.use?_after, if_pos rfl] at hwithdraws
    obtain ⟨task, hleft, huse⟩ := Option.bind_eq_some_iff.mp hwithdraws
    have hissues : x.issues? = some (.release mix.mixer.id) :=
      Option.bind_eq_some_iff.mpr ⟨task, hleft, Task.call?_of_mixUse? huse⟩
    exact Or.inr (mem_releases_of_issues hissues rfl)
  · exact Or.inl hsame

/-- A port is asked for when the endpoint was made and the mix is the published one. -/
theorem port_on_published {n : Negotiation} {mix : SharedMix} {endpoint : Endpoint}
    (hleft : x.left = some (.negotiation n (.creatingPort mix endpoint))) :
    x.was = some (.negotiation n (.creatingEndpoint mix)) ∧
      x.before.coordinator.mix.published = some mix ∧ x.after.coordinator.mix.published = some mix := by
  obtain ⟨id, hwas, hreply⟩ : ∃ id, x.was = some (.negotiation n (.creatingEndpoint mix)) ∧
      x.action.reply? = some (.ok id) := by
    have hmove := (hx.taken h).follows.move
    rw [← left, hleft] at hmove
    generalize x.was = was at hmove
    generalize x.calls = calls at hmove
    generalize x.action.reply? = reply at hmove
    cases hmove with
    | endpointMade => exact ⟨_, rfl, rfl⟩
    | disposes _ hd | givesUp _ _ hd => cases hd.not_live rfl
    | goesOn _ hdrained => cases hdrained
  have ht := (hx.taken h).task.trans hwas
  cases hx with
  | request => cases hwas
  | turn _ hturn =>
    cases hwas
    cases hturn
  | @reply b t task call reply _ hcall _ =>
    cases hwas
    cases hreply
    obtain ⟨e, he, _⟩ := h.hasEntry t n _ ⟨ht, rfl⟩
    change (b.coordinator.endpointMade n mix ⟨⟨id⟩⟩).task.ongoing? = _ at hleft
    rcases Coordinator.endpointMade_cases h.wellFormed he mix ⟨⟨id⟩⟩ with
      ⟨_, hp, _⟩ | ⟨c', fault, e', hgives, _⟩
    · refine ⟨rfl, hp, ?_⟩
      change (b.coordinator.endpointMade n mix ⟨⟨id⟩⟩).coordinator.mix.published = _
      rw [Coordinator.endpointMade_mix]
      exact hp
    · rw [hgives, Coordinator.giveUp_ongoing?] at hleft
      split at hleft <;> cases hleft

/-- The mix a negotiation is to build on was so before, or it is the published one. -/
theorem mix_left (hl : x.before.Locked) {n : Negotiation} {stage : NegotiationStage} {mix : SharedMix}
    (hleft : x.left = some (.negotiation n stage)) (hmix : stage.mix? n = some mix) :
    (∃ stage', x.was = some (.negotiation n stage') ∧ stage'.mix? n = some mix) ∨
      x.before.coordinator.mix.published = some mix ∨ x.after.coordinator.mix.published = some mix := by
  cases stage with
  | prepared => exact Or.inr (Or.inl (hx.published_of_begins h hleft hmix))
  | creatingEndpoint mix' =>
    cases hmix
    rcases hx.mix_origin h hleft with ⟨hwas, hsnapshot⟩ | hobtained
    · exact Or.inl ⟨.prepared, hwas, hsnapshot⟩
    · exact Or.inr (Or.inr ((hx.mix_turn h).published_of_ret hl.agree hobtained))
  | creatingPort mix' endpoint =>
    cases hmix
    exact Or.inr (Or.inr (hx.port_on_published h hleft).2.2)
  | _ => cases hmix

theorem founded (hl : x.before.Locked) (hf : x.before.Founded) : x.after.Founded := by
  have hstays : ∀ {mix : SharedMix},
      x.before.coordinator.mix.published = some mix ∨ mix.mixer.id ∈ Broadcast.releases x.before.log →
      x.after.coordinator.mix.published = some mix ∨ mix.mixer.id ∈ Broadcast.releases x.after.log := by
    rintro mix (hp | hreleased)
    · exact hx.published_or_withdrawn h hl hp
    · exact Or.inr (releases_subset hreleased)
  intro t n stage mix ht hmix
  rw [x.get?_after] at ht
  split at ht
  · rcases hx.mix_left h hl ht hmix with ⟨stage', hwas, hmix'⟩ | hp | hp
    · exact hstays (hf x.task n stage' mix ((hx.taken h).task.trans hwas) hmix')
    · exact hstays (Or.inl hp)
    · exact Or.inl hp
  · exact hstays (hf t n stage mix ht hmix)

end Occurs
end Episode

theorem founded (actions : List Action) : (run {} actions).Founded := by
  refine (history_induction (P := fun _ b => b.Locked ∧ b.Founded)
    ⟨locked_empty, fun _ _ _ _ h => by cases h⟩ ?_ actions).2
  rintro _ x ⟨hl, hf⟩ h hx
  exact ⟨hl.step h hx, hx.founded h hl hf⟩

/-- Once a negotiation knows its mix, the mix is gone when the release of its mixer was asked for. -/
theorem unpublished_iff_released {actions : List Action} {t : TaskId} {n : Negotiation}
    {stage : NegotiationStage} {mix : SharedMix}
    (ht : (run {} actions).tasks.get? t = some (.negotiation n stage)) (hmix : stage.mix? n = some mix) :
    (run {} actions).coordinator.mix.published ≠ some mix ↔
      mix.mixer.id ∈ releases (run {} actions).log := by
  refine ⟨(founded actions t n stage mix ht hmix).resolve_left, fun hreleased hp => ?_⟩
  exact ((accounts actions).published_unreleased (ledger actions) hp).2 hreleased

/-! ## A negotiation that finds its mix gone -/

/-- A negotiation without an endpoint had none before. -/
theorem Episode.Occurs.bare_origin {x : Episode} (hx : x.Occurs) (h : x.before.Consistent)
    {n : Negotiation} {stage : NegotiationStage} (hleft : x.left = some (.negotiation n stage))
    (hbare : stage.isBare) :
    x.was = none ∨ ∃ stage', x.was = some (.negotiation n stage') ∧ stage'.isBare := by
  have hmove := (hx.taken h).follows.move
  rw [← left, hleft] at hmove
  generalize x.was = was at hmove
  generalize x.calls = calls at hmove
  generalize x.action.reply? = reply at hmove
  cases hmove with
  | enters => exact Or.inl rfl
  | waits hseeks | obtains hseeks =>
    exact Or.inr ⟨_, rfl, NegotiationStage.isBare_of_seeksMix hseeks⟩
  | disposes _ hd | givesUp _ _ hd =>
    have hlive := NegotiationStage.isLive_of_isBare hbare
    rw [hd.not_live rfl] at hlive
    cases hlive
  | goesOn _ hdrained => cases hdrained <;> cases hbare
  | _ => cases hbare

/-- Nothing was built for a negotiation that has no endpoint yet. -/
theorem bare_unbuilt (actions : List Action) {t : TaskId} {n : Negotiation} {stage : NegotiationStage}
    (ht : (run {} actions).tasks.get? t = some (.negotiation n stage)) (hbare : stage.isBare) :
    ∀ y ∈ history {} actions, y.task = t → ∀ call, y.issues? = some call → call.builds = false := by
  refine (history_induction (P := fun past b => Chronicle past b ∧
    ∀ t n stage, b.tasks.get? t = some (.negotiation n stage) → stage.isBare →
      ∀ y ∈ past, y.task = t → ∀ call, y.issues? = some call → call.builds = false)
    ⟨chronicle_empty, fun _ _ _ _ _ _ hy => by cases hy⟩ ?_ actions).2 t n stage ht hbare
  rintro past x ⟨hp, hold⟩ h hx
  refine ⟨hp.step h hx, fun t n stage ht hbare y hy hyt call hcall => ?_⟩
  rw [x.get?_after] at ht
  by_cases hne : x.task = t
  · subst hne
    rw [if_pos rfl] at ht
    rcases List.mem_append.mp hy with hy | hy
    · rcases hx.bare_origin h ht hbare with hwas | ⟨stage', hwas, hbare'⟩
      · -- a task that begins has taken no step before
        have hnone := hp.unused x.task (by rw [hx.begins hwas])
        have hmem : y ∈ stepsOf past x.task := List.mem_filter.mpr ⟨hy, by simp [hyt]⟩
        rw [hnone] at hmem
        cases hmem
      · exact hold x.task n stage' ((hx.taken h).task.trans hwas) hbare' y hy hyt call hcall
    · obtain rfl := List.mem_singleton.mp hy
      obtain ⟨task, hleft, hcall⟩ := Option.bind_eq_some_iff.mp hcall
      cases hleft.symm.trans ht
      exact NegotiationStage.builds_of_isBare hbare hcall
  · rw [if_neg hne] at ht
    rcases List.mem_append.mp hy with hy | hy
    · exact hold t n stage ht hbare y hy hyt call hcall
    · obtain rfl := List.mem_singleton.mp hy
      exact (hne hyt).elim

/-- A negotiation whose last object is being released fails in its next step. -/
theorem last_release {actions : List Action} {t : TaskId} {n : Negotiation} {fault : NegotiationFault}
    {e : Entry} {o : ObjectId}
    (ht : (run {} actions).tasks.get? t = some (.negotiation n (.releasing fault e o [])))
    (later : List Action) :
    let past := (run {} actions).history later
    let b := (run {} actions).run later
    (b.tasks.get? t = some (.negotiation n (.releasing fault e o [])) ∧ ∀ y ∈ past, y.task ≠ t) ∨
      (∃ y ∈ past, y.task = t) ∧ ∀ y ∈ past, y.task = t →
        y.result.task = .done (.negotiated (.error fault)) := by
  refine (@later_induction (fun past b =>
    b.tasks.get? t = some (.negotiation n (.releasing fault e o [])) ∧ (∀ y ∈ past, y.task ≠ t) ∨
      (b.tasks.get? t = none ∧ t.number < b.nextTask) ∧ (∃ y ∈ past, y.task = t) ∧
        ∀ y ∈ past, y.task = t → y.result.task = .done (.negotiated (.error fault)))
    actions later (Or.inl ⟨ht, fun _ hy => by cases hy⟩) ?_).imp_right And.right
  rintro past x hp ⟨earlier, hbefore⟩ hx _
  have h : x.before.Consistent := hbefore ▸ consistent earlier
  have hnext : x.after.nextTask = max x.before.nextTask (x.task.number + 1) := rfl
  rw [x.get?_after]
  rcases hp with ⟨ht, hno⟩ | ⟨⟨hnone, hlt⟩, hone, hends⟩
  · by_cases hne : x.task = t
    · subst hne
      obtain ⟨c, _, _, hresult, _⟩ := hx.releases ((hx.taken h).task.symm.trans ht)
      have hdone : x.result.task = .done (.negotiated (.error fault)) := by
        rw [hresult]
        rfl
      refine Or.inr ⟨⟨?_, by omega⟩, ⟨x, by simp, rfl⟩, fun y hy hyt => ?_⟩
      · rw [if_pos rfl, Episode.left, hdone]
        rfl
      · rcases List.mem_append.mp hy with hy | hy
        · exact (hno y hy hyt).elim
        · obtain rfl := List.mem_singleton.mp hy
          exact hdone
    · refine Or.inl ⟨by rw [if_neg hne, ht], fun y hy => ?_⟩
      rcases List.mem_append.mp hy with hy | hy
      · exact hno y hy
      · obtain rfl := List.mem_singleton.mp hy
        exact hne
  · have hne : x.task ≠ t := hx.ne_of_ended h hnone hlt
    obtain ⟨y, hy, hyt⟩ := hone
    refine Or.inr ⟨⟨by rw [if_neg hne, hnone], by omega⟩, ⟨y, List.mem_append_left _ hy, hyt⟩,
      fun z hz hzt => ?_⟩
    rcases List.mem_append.mp hz with hz | hz
    · exact hends z hz hzt
    · obtain rfl := List.mem_singleton.mp hz
      exact (hne hzt).elim

theorem port_of_call {task : Task} {mixer : Mixer} (h : task.call? = some (.createPort mixer)) :
    ∃ n mix endpoint, task = .negotiation n (.creatingPort mix endpoint) ∧ mix.mixer = mixer := by
  obtain ⟨n, stage, rfl⟩ := negotiation_of_call h rfl
  cases stage with
  | creatingPort mix endpoint =>
    cases h
    exact ⟨n, mix, endpoint, rfl, rfl⟩
  | obtainingMix request => cases request <;> cases h
  | connecting endpoint port =>
    cases hrole : n.role <;> simp [Task.call?, NegotiationStage.call?, hrole] at h
  | _ => cases h

section Runs
variable {actions : List Action} {x : Episode} (hx : x ∈ history {} actions)
include hx

/-- A port is asked for on the published mix, of which nothing was released. -/
theorem port_of_issues {mixer : Mixer} (hissues : x.issues? = some (.createPort mixer)) :
    ∃ n mix endpoint, x.was = some (.negotiation n (.creatingEndpoint mix)) ∧
      x.left = some (.negotiation n (.creatingPort mix endpoint)) ∧ mix.mixer = mixer ∧
      x.before.coordinator.mix.published = some mix ∧
      x.after.coordinator.mix.published = some mix ∧ mixer.id ∉ releases x.after.log := by
  obtain ⟨hoccurs, earlier, _, _, hbefore, hafter⟩ := occurs_of_mem hx
  obtain ⟨task, hleft, hcall⟩ := Option.bind_eq_some_iff.mp hissues
  obtain ⟨n, mix, endpoint, rfl, rfl⟩ := port_of_call hcall
  obtain ⟨hwas, hp, hp'⟩ := hoccurs.port_on_published (hbefore ▸ consistent earlier) hleft
  refine ⟨n, mix, endpoint, hwas, hleft, rfl, hp, hp', ?_⟩
  rw [hafter] at hp' ⊢
  exact ((accounts _).published_unreleased (ledger _) hp').2

variable {n : Negotiation} {mix : SharedMix} {id : String}
  (hwas : x.was = some (.negotiation n (.creatingEndpoint mix)))
  (hreply : x.action.reply? = some (.ok id))
include hwas hreply

/-- The endpoint that was made for a negotiation whose mix is gone is released next. -/
theorem left_of_gone (hgone : x.before.coordinator.mix.published ≠ some mix) :
    ∃ fault e, x.left = some (.negotiation n (.releasing fault e ⟨id⟩ [])) ∧
      (x.before.Marked n.attempt → fault = .stopped) ∧
      (¬ x.before.Marked n.attempt → fault = Coordinator.mixGone n.role) := by
  obtain ⟨hoccurs, earlier, _, _, hbefore, _⟩ := occurs_of_mem hx
  have h : x.before.Consistent := hbefore ▸ consistent earlier
  obtain ⟨e, he, _, hendpoint, hport, _⟩ :=
    h.hasEntry x.task n _ ⟨(hoccurs.taken h).task.trans hwas, rfl⟩
  obtain ⟨hm, ha⟩ := h.wellFormed.mem_of_attempt? he
  have hmarked : x.before.Marked n.attempt ↔ e.stopped := by
    rw [← ha]
    rw [hbefore] at hm ⊢
    exact marked_iff_stopped hm
  have hresult : ∃ c : Coordinator, x.result = c.endpointMade n mix ⟨⟨id⟩⟩ ∧
      c.registry = x.before.coordinator.registry ∧ c.mix = x.before.coordinator.mix := by
    cases hoccurs with
    | request => cases hwas
    | turn _ hturn =>
      cases hwas
      cases hturn
    | reply =>
      cases hwas
      cases hreply
      exact ⟨_, rfl, rfl, rfl⟩
  obtain ⟨c, hresult, hregistry, hmix⟩ := hresult
  rw [← hregistry] at he
  rcases Coordinator.endpointMade_cases (hregistry ▸ h.wellFormed) he mix ⟨⟨id⟩⟩ with
    ⟨_, hp, _⟩ | ⟨c', fault, e', hgives, rfl, hstopped, hrunning⟩
  · exact (hgone (hmix ▸ hp)).elim
  · refine ⟨fault, { e with endpoint := some ⟨⟨id⟩⟩ }, ?_, fun hm => hstopped (hmarked.mp hm),
      fun hm => (hrunning (mt hmarked.mpr hm)).1⟩
    rw [Episode.left, hresult, hgives, Coordinator.giveUp_ongoing?]
    simp [Entry.objects, hport]

theorem released_of_gone (hgone : x.before.coordinator.mix.published ≠ some mix) :
    (releases (run {} actions).log).count ⟨id⟩ = 1 := by
  obtain ⟨fault, e, hleft, _⟩ := left_of_gone hx hwas hreply hgone
  obtain ⟨_, later, _, _, hrun, _⟩ := history_split hx
  obtain ⟨more, hlog⟩ := log_run x.after later
  rw [← hrun] at hlog
  have hissues : x.issues? = some (.release ⟨id⟩) := Option.bind_eq_some_iff.mpr ⟨_, hleft, rfl⟩
  have hasked : ⟨id⟩ ∈ releases (run {} actions).log := by
    rw [hlog, releases, List.filterMap_append]
    exact List.mem_append_left _ (Episode.mem_releases_of_issues hissues rfl)
  have hmade : (n.attempt, .endpoint, ⟨id⟩) ∈ madeFor (run {} actions).log := by
    rw [hlog, madeFor, List.flatMap_append]
    refine List.mem_append_left _ ?_
    change _ ∈ madeFor x.after.log
    rw [Episode.after, madeFor_take, hwas, hreply]
    exact List.mem_append_right _ (List.mem_singleton_self _)
  have hle := (accounts actions).count_releases (media_of_madeFor hmade rfl)
  have hpos := List.count_pos_iff.mpr hasked
  omega

end Runs

/--
A negotiation has its endpoint connected to the mix that is published when it asks for the port, and of
which nothing was released. When its endpoint was made and the mix was withdrawn meanwhile, whether or not
another one was published since, nothing is built for the negotiation, its endpoint is released once, and
it fails because its mix is gone, or because its session was stopped.
-/
theorem nothing_built_on_withdrawn_mix (actions : List Action) :
    (∀ x ∈ history {} actions, ∀ mixer, x.issues? = some (.createPort mixer) →
      ∃ n mix endpoint, x.was = some (.negotiation n (.creatingEndpoint mix)) ∧
        x.left = some (.negotiation n (.creatingPort mix endpoint)) ∧ mix.mixer = mixer ∧
        x.before.coordinator.mix.published = some mix ∧
        x.after.coordinator.mix.published = some mix ∧ mixer.id ∉ releases x.after.log) ∧
    ∀ x ∈ history {} actions, ∀ n mix id, x.was = some (.negotiation n (.creatingEndpoint mix)) →
      x.action.reply? = some (.ok id) →
      (x.before.coordinator.mix.published ≠ some mix ↔ mix.mixer.id ∈ releases x.before.log) ∧
      (x.before.coordinator.mix.published ≠ some mix →
        (∀ y ∈ history {} actions, y.task = x.task → ∀ call, y.issues? = some call →
          call.builds = false) ∧
        x.issues? = some (.release ⟨id⟩) ∧ (releases (run {} actions).log).count ⟨id⟩ = 1 ∧
        ∃ fault, (x.before.Marked n.attempt → fault = .stopped) ∧
          (¬ x.before.Marked n.attempt → fault = Coordinator.mixGone n.role) ∧
          ((∃ e, (run {} actions).tasks.get? x.task =
              some (.negotiation n (.releasing fault e ⟨id⟩ []))) ∨
            ∃ y ∈ history {} actions, y.task = x.task ∧
              y.result.task = .done (.negotiated (.error fault))) ∧
          ∀ y ∈ history {} actions, y.task = x.task → ∀ ending, y.result.task = .done ending →
            ending = .negotiated (.error fault)) := by
  refine ⟨fun x hx mixer => port_of_issues hx, fun x hx n mix id hwas hreply => ?_⟩
  obtain ⟨hoccurs, _⟩ := occurs_of_mem hx
  obtain ⟨earlier, later, hbefore, hafter, hrun, hhistory⟩ := history_split hx
  have ht : (run {} earlier).tasks.get? x.task = some (.negotiation n (.creatingEndpoint mix)) :=
    hbefore ▸ (hoccurs.taken (hbefore ▸ consistent earlier)).task.trans hwas
  refine ⟨hbefore ▸ unpublished_iff_released ht rfl, fun hgone => ?_⟩
  obtain ⟨fault, e, hleft, hmarked, hunmarked⟩ := left_of_gone hx hwas hreply hgone
  have hissues : x.issues? = some (.release ⟨id⟩) := Option.bind_eq_some_iff.mpr ⟨_, hleft, rfl⟩
  have ht' : (run {} (earlier ++ [x.action])).tasks.get? x.task =
      some (.negotiation n (.releasing fault e ⟨id⟩ [])) := by
    rw [← hafter, x.get?_after, if_pos rfl, hleft]
  have hlast := last_release ht' later
  simp only [← hafter, ← hrun] at hlast
  have hlater : ∀ y ∈ x.after.history later, y.task = x.task →
      y.result.task = .done (.negotiated (.error fault)) := by
    intro y hy hyt
    rcases hlast with ⟨_, hno⟩ | ⟨_, hends⟩
    · exact (hno y hy hyt).elim
    · exact hends y hy hyt
  simp only [hhistory, List.mem_append, List.mem_cons]
  refine ⟨fun y hy hyt call hcall => ?_, hissues, released_of_gone hx hwas hreply hgone,
    fault, hmarked, hunmarked, ?_, fun y hy hyt ending hdone => ?_⟩
  · rcases hy with hy | rfl | hy
    · exact bare_unbuilt earlier ht rfl y hy hyt call hcall
    · cases hissues.symm.trans hcall
      rfl
    · rw [Episode.issues?, Episode.left, hlater y hy hyt] at hcall
      cases hcall
  · rcases hlast with ⟨hstill, _⟩ | ⟨⟨y, hy, hyt⟩, hends⟩
    · exact Or.inl ⟨e, hstill⟩
    · exact Or.inr ⟨y, Or.inr (Or.inr hy), hyt, hends y hy hyt⟩
  · rcases hy with hy | rfl | hy
    · have hended : y.left = none := by
        rw [Episode.left, hdone]
        rfl
      have hgone := (ended_gone earlier y hy hended).2
      rw [hyt, ht] at hgone
      cases hgone
    · rw [Episode.left, hdone] at hleft
      cases hleft
    · cases (hlater y hy hyt).symm.trans hdone
      rfl

/-- While the engine makes the endpoint of a presenter, the mix is withdrawn and made anew. -/
def mixMadeAnew : List Action :=
  [.request (.prepare ⟨1⟩ .presenter "offer"), .turn ⟨0⟩, .reply ⟨0⟩ (.ok "pipeline"),
    .reply ⟨0⟩ (.ok "mixer"), .request .withdrawMix, .reply ⟨1⟩ (.ok ""), .reply ⟨1⟩ (.ok ""),
    .request .requestMix, .reply ⟨2⟩ (.ok "pipeline2"), .reply ⟨2⟩ (.ok "mixer2")]

/-- The endpoint for the old mix is released, and the presenter is told that its mix is gone. -/
theorem endpoint_for_old_mix_released :
    let actions := mixMadeAnew ++ [.reply ⟨0⟩ (.ok "endpoint"), .reply ⟨0⟩ (.ok "")]
    ∃ x ∈ history {} actions,
      x.was = some (.negotiation ⟨⟨1⟩, ⟨1⟩, .presenter, "offer", none⟩
        (.creatingEndpoint ⟨⟨⟨"pipeline"⟩⟩, ⟨⟨"mixer"⟩⟩⟩)) ∧
      x.before.coordinator.mix.published = some ⟨⟨⟨"pipeline2"⟩⟩, ⟨⟨"mixer2"⟩⟩⟩ ∧
      (releases (run {} actions).log).count ⟨"endpoint"⟩ = 1 ∧
      ∃ y ∈ history {} actions, y.task = x.task ∧
        y.result.task = .done (.negotiated (.error .mixReleased)) := by
  intro actions
  have hx := List.mem_of_getElem? (l := history {} actions) (i := 10) rfl
  refine ⟨_, hx, rfl, rfl, ?_⟩
  obtain ⟨_, _, hone, fault, _, hunmarked, hends, _⟩ :=
    ((nothing_built_on_withdrawn_mix actions).2 _ hx _ _ _ rfl rfl).2 (by decide)
  refine ⟨hone, ?_⟩
  have hgone : fault = .mixReleased := hunmarked fun hmarked => by
    cases (@stopped_of_marked mixMadeAnew _ hmarked { attempt := ⟨1⟩, role := .presenter }
      (by decide) rfl).1
  rw [hgone] at hends
  refine hends.resolve_left ?_
  rintro ⟨e, hstill⟩
  cases hstill

end Broadcast
end Rostrum
