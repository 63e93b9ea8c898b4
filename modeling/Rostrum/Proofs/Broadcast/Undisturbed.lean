import Rostrum.Proofs.Broadcast.Shutdown

/-!
# Runs in which nothing goes wrong

When every call succeeds and nobody takes the mix away, a negotiation that was given up was stopped
before. For the other reasons to give up are a call that fails and a mix that is gone, and the mix that
a negotiation has obtained stays published until the end of such a run.
-/

namespace Rostrum

open Broadcast

/-- Whether a task takes the mix away, or is going to. -/
def Task.withdraws : Task → Bool
  | .shutdown _ => true
  | .mixWithdrawal _ => true
  | _ => false

namespace MixCell

/-- A request for the mix fails when a call fails. -/
theorem resumeRequest_fails {m m' : MixCell} {stage : MixRequest} {reply : Reply} {fault : EngineFault}
    (h : m.resumeRequest stage reply = (.done (.error fault), m')) :
    (∃ f, reply = .error f) ∨ ∃ pipeline f, stage = .undoing pipeline f := by
  cases stage with
  | waiting => cases h
  | creatingPipeline | creatingMixer =>
    cases reply with
    | ok => cases h
    | error f => exact Or.inl ⟨f, rfl⟩
  | undoing pipeline f => exact Or.inr ⟨pipeline, f, rfl⟩

theorem enterRequest_succeeds {m m' : MixCell} {fault : EngineFault} :
    m.enterRequest ≠ (.done (.error fault), m') := by
  unfold enterRequest
  split <;> exact fun h => by cases h

theorem request_succeeds {m m' : MixCell} {t : TaskId} {fault : EngineFault} :
    m.request t ≠ (.done (.error fault), m') := by
  unfold request
  split
  · exact enterRequest_succeeds
  · exact fun h => by cases h

end MixCell

/-! ## Why a negotiation gives up -/

namespace Coordinator
variable {c : Coordinator} {n : Negotiation}

theorem running?_of_advanceChecked {stage : NegotiationStage} (hlive : stage.isLive)
    (h : (c.advanceChecked n stage).task.gaveUp) : c.registry.running? n.session n.attempt = none := by
  unfold advanceChecked at h
  split at h
  · simp [advance, Progress.gaveUp, hlive] at h
  · rename_i hcheck
    exact Registry.check_eq_error hcheck

theorem running?_of_drain {endpoint : Endpoint} (h : (c.drain n endpoint).task.gaveUp) :
    c.registry.running? n.session n.attempt = none := by
  unfold drain at h
  rcases c.registry.nextCandidate_cases n.session n.attempt with
    ⟨hnone, _⟩ | ⟨_, _, _, _, _, hr⟩ | ⟨_, _, _, hr⟩
  · exact hnone
  · rw [hr] at h
    cases h
  · rw [hr] at h
    cases h

theorem running?_of_endpointMade {mix : SharedMix} {endpoint : Endpoint}
    (hmix : c.mix.published = some mix) (h : (c.endpointMade n mix endpoint).task.gaveUp) :
    c.registry.running? n.session n.attempt = none := by
  have hnote := c.registry.note_spec n.session n.attempt fun e => { e with endpoint := some endpoint }
  unfold endpointMade Registry.setEndpoint at h
  rcases hnote with ⟨hok, _⟩ | ⟨_, hnone⟩
  · generalize Registry.note _ _ _ _ = noted at h hok
    obtain ⟨_, registry⟩ := noted
    obtain rfl := hok
    have hcurrent : c.mix.isCurrent mix := by simp [MixCell.isCurrent, hmix]
    simp only [hcurrent, if_true] at h
    cases h
  · exact hnone

theorem running?_of_portMade {endpoint : Endpoint} {port : MixerPort}
    (h : (c.portMade n endpoint port).task.gaveUp) :
    c.registry.running? n.session n.attempt = none := by
  have hnote := c.registry.note_spec n.session n.attempt fun e => { e with port := some port }
  unfold portMade Registry.setPort at h
  rcases hnote with ⟨hok, _⟩ | ⟨_, hnone⟩
  · generalize Registry.note _ _ _ _ = noted at h hok
    obtain ⟨_, registry⟩ := noted
    obtain rfl := hok
    cases h
  · exact hnone

theorem running?_of_answered {endpoint : Endpoint} {answer : String}
    (h : (c.answered n endpoint answer).task.gaveUp) :
    c.registry.running? n.session n.attempt = none := by
  unfold answered at h
  split at h
  · cases h
  · rename_i hcheck
    exact Registry.check_eq_error hcheck

theorem running?_of_complete {answer : String} (h : (c.complete n answer).task.gaveUp) :
    c.registry.running? n.session n.attempt = none := by
  unfold complete at h
  rcases c.registry.finish_cases n.session n.attempt with ⟨hnone, _⟩ | ⟨_, _, hr⟩
  · exact hnone
  · rw [hr] at h
    cases h

theorem running?_of_afterMix {step : MixCell.RequestStep}
    (hsucceeds : ∀ fault m, step ≠ (.done (.error fault), m)) (h : (c.afterMix n step).task.gaveUp) :
    c.registry.running? n.session n.attempt = none := by
  unfold afterMix at h
  split at h
  · cases h
  · rename_i shared m
    exact running?_of_advanceChecked (c := { c with mix := m }) rfl h
  · exact absurd rfl (hsucceeds _ _)

/-- A negotiation that waits for a call gives up when the call fails, when its mix is gone, or if stopped. -/
theorem running?_of_resume {stage : NegotiationStage} {reply : Reply} (hlive : stage.isLive)
    (hok : ∀ fault, reply ≠ .error fault)
    (hundo : ∀ pipeline fault, stage ≠ .obtainingMix (.undoing pipeline fault))
    (hmix : ∀ mix, stage = .creatingEndpoint mix → c.mix.published = some mix)
    (h : (c.resume n stage reply).task.gaveUp) : c.registry.running? n.session n.attempt = none := by
  cases reply with
  | error fault => exact absurd rfl (hok fault)
  | ok text =>
    cases stage with
    | prepared => cases h
    | releasing => cases hlive
    | obtainingMix request =>
      refine running?_of_afterMix (fun fault m hfails => ?_) h
      rcases MixCell.resumeRequest_fails hfails with ⟨f, hf⟩ | ⟨pipeline, f, rfl⟩
      · cases hf
      · exact hundo pipeline f rfl
    | creatingEndpoint mix => exact running?_of_endpointMade (hmix mix rfl) h
    | creatingPort mix endpoint => exact running?_of_portMade h
    | connecting endpoint port =>
      rcases c.connected_cases n endpoint port text with ⟨_, hresume⟩ | ⟨fault, hcheck, _⟩
      · rw [hresume] at h
        exact running?_of_drain h
      · exact Registry.check_eq_error hcheck
    | applying endpoint candidate => exact running?_of_drain h
    | subscribing endpoint => exact running?_of_advanceChecked rfl h
    | offering endpoint => exact running?_of_answered h
    | gathering endpoint answer => exact running?_of_complete h

theorem running?_of_start {t : TaskId} (h : (c.start t n).task.gaveUp) :
    c.registry.running? n.session n.attempt = none := by
  unfold start at h
  split at h
  · exact running?_of_advanceChecked rfl h
  · exact running?_of_afterMix (fun _ _ => MixCell.request_succeeds) h

/-! ## The mix of a negotiation -/

theorem abort_not_live {n' : Negotiation} {fault : NegotiationFault} {stage : NegotiationStage}
    (h : (c.abort n fault).task.ongoing? = some (.negotiation n' stage)) : stage.isLive = false := by
  unfold abort at h
  split at h
  · rw [giveUp_ongoing?] at h
    split at h <;> cases h
    rfl
  · cases h

theorem mix_of_advanceChecked {shared mix : SharedMix}
    (h : (c.advanceChecked n (.creatingEndpoint shared)).task.ongoing? =
      some (.negotiation n (.creatingEndpoint mix))) : shared = mix := by
  unfold advanceChecked at h
  split at h
  · cases h
    rfl
  · cases abort_not_live h

/-- A negotiation goes on with the mix that its request returned. -/
theorem done_of_afterMix {step : MixCell.RequestStep} {mix : SharedMix}
    (h : (c.afterMix n step).task.ongoing? = some (.negotiation n (.creatingEndpoint mix))) :
    step.1.done? = some (.ok mix) := by
  unfold afterMix at h
  split at h
  · cases h
  · obtain rfl := mix_of_advanceChecked h
    rfl
  · cases abort_not_live h

/-- A viewer starts from the mix that is published. -/
theorem published_of_prepare {s : SessionId} {role : Role} {offer : String} {mix : SharedMix}
    (h : (c.prepare s role offer).1 = .ok n) (hsnapshot : n.snapshot = some mix) :
    c.mix.published = some mix := by
  unfold prepare reserve at h
  cases hs : c.snapshot s role with
  | error fault =>
    rw [hs] at h
    cases h
  | ok snapshot =>
    have hn : n.snapshot = snapshot := by
      rw [hs] at h
      cases hr : c.registry.register s role with
      | error fault =>
        simp [hr, Bind.bind, Except.bind] at h
      | ok entered =>
        simp only [hr, Bind.bind, Except.bind] at h
        cases h
        rfl
    rw [← hn, hsnapshot] at hs
    cases role with
    | presenter => cases hs
    | viewer =>
      simp only [Coordinator.snapshot] at hs
      split at hs
      · cases hs
      · split at hs
        · rename_i hp
          cases hs
          exact hp
        · cases hs

end Coordinator

theorem Task.withdraws_of_mixUse? {task : Task} {stage : MixWithdrawal}
    (h : task.mixUse? = some (.withdrawal stage)) : task.withdraws := by
  cases task with
  | negotiation n stage => cases stage <;> cases h
  | shutdown | mixWithdrawal => rfl
  | _ => cases h

namespace Broadcast

/-- Whether an action lets a call fail or takes the mix away. -/
def Action.disturbs : Action → Bool
  | .request (.shutdown _) => true
  | .request .withdrawMix => true
  | .reply _ (.error _) => true
  | _ => false

theorem Action.disturbs_of_fault {a : Action} {fault : EngineFault}
    (h : a.reply? = some (.error fault)) : a.disturbs := by
  cases a with
  | reply _ said =>
    cases h
    rfl
  | _ => cases h

/-- What holds between two steps when nothing has gone wrong. -/
structure Undisturbed (b : Broadcast) : Prop where
  kept : ∀ t task, b.tasks.get? t = some task → task.withdraws = false
  sound : ∀ t pipeline fault, b.use? t ≠ some (.request (.undoing pipeline fault))
  current : ∀ t n stage mix, b.tasks.get? t = some (.negotiation n stage) →
    stage = .prepared ∧ n.snapshot = some mix ∨ stage = .creatingEndpoint mix →
    b.coordinator.mix.published = some mix
  accepted : ∀ t task reply, .replied t task reply ∈ b.log → ∃ text, reply = .ok text

theorem undisturbed_empty : Undisturbed {} where
  kept _ _ h := by cases h
  sound _ _ _ h := by cases h
  current _ _ _ _ h := by cases h
  accepted _ _ _ h := by cases h

namespace Episode.Occurs
variable {x : Episode} (hx : x.Occurs) (h : x.before.Consistent)
include hx h

/-- A negotiation has its mix from the state it began in, or from its request. -/
theorem mix_origin {n : Negotiation} {mix : SharedMix}
    (hleft : x.left = some (.negotiation n (.creatingEndpoint mix))) :
    (x.was = some (.negotiation n .prepared) ∧ n.snapshot = some mix) ∨
      x.obtained? = some (.ok mix) := by
  obtain ⟨stage, hwas, hseeks⟩ :
      ∃ stage, x.was = some (.negotiation n stage) ∧ stage.seeksMix := by
    have hmove := (hx.taken h).follows.move
    rw [← left, hleft] at hmove
    generalize x.was = was at hmove
    generalize x.calls = calls at hmove
    generalize x.action.reply? = reply at hmove
    cases hmove with
    | obtains hseeks => exact ⟨_, rfl, hseeks⟩
    | disposes _ hd | givesUp _ _ hd => cases hd.not_live rfl
    | goesOn _ hdrained => cases hdrained
  cases hx with
  | request => cases hwas
  | @turn b t task ht hturn =>
    cases hwas
    cases stage with
    | prepared =>
      change (b.coordinator.start t n).task.ongoing? = _ at hleft
      unfold Coordinator.start at hleft
      cases hsnapshot : n.snapshot with
      | some shared =>
        rw [hsnapshot] at hleft
        exact Or.inl ⟨rfl, by rw [Coordinator.mix_of_advanceChecked hleft]⟩
      | none =>
        rw [hsnapshot] at hleft
        have hdone := Coordinator.done_of_afterMix hleft
        exact Or.inr (by simp [obtained?, mixRequest?, hsnapshot, hdone])
    | obtainingMix request =>
      cases request with
      | waiting => exact Or.inr (Coordinator.done_of_afterMix hleft)
      | _ => cases hturn
    | _ => cases hseeks
  | @reply b t task call reply ht hcall hadmits =>
    cases hwas
    cases stage with
    | prepared => cases hcall
    | obtainingMix request =>
      have hdone := Coordinator.done_of_afterMix hleft
      rw [b.coordinator.countRelease_mix] at hdone
      exact Or.inr hdone
    | _ => cases hseeks

/-- A negotiation that begins with a mix begins with the published one. -/
theorem published_of_begins {n : Negotiation} {mix : SharedMix}
    (hleft : x.left = some (.negotiation n .prepared)) (hsnapshot : n.snapshot = some mix) :
    x.before.coordinator.mix.published = some mix := by
  have hbegins := hx.prepared_origin h hleft
  cases hx with
  | turn | reply => cases hbegins
  | @request b q =>
    cases serve_begins hleft with
    | @prepare s role offer a snapshot =>
      change (serve b.coordinator ⟨b.nextTask⟩ (.prepare s role offer)).task.ongoing? = _ at hleft
      have hprepared : (b.coordinator.prepare s role offer).1 = .ok ⟨s, a, role, offer, snapshot⟩ := by
        rw [serve] at hleft
        split at hleft
        · cases hleft
          rename_i hprepared
          rw [hprepared]
        · cases hleft
      exact Coordinator.published_of_prepare hprepared hsnapshot

variable (hu : x.before.Undisturbed) (hquiet : x.action.disturbs = false)
include hu hquiet

theorem left_kept {task : Task} (hleft : x.left = some task) : task.withdraws = false := by
  cases hwas : x.was with
  | none =>
    cases hx with
    | turn | reply => cases hwas
    | request =>
      cases serve_begins hleft with
      | shutdown | withdrawMix => cases hquiet
      | _ => rfl
  | some task₀ =>
    have hkept := hu.kept x.task task₀ ((hx.taken h).task.trans hwas)
    cases hx.continues h hwas hleft with
    | shutdown | mixWithdrawal => cases hkept
    | _ => rfl

/-- The published mix stays. -/
theorem published_stays (hl : x.before.Locked) {mix : SharedMix}
    (hp : x.before.coordinator.mix.published = some mix) :
    x.after.coordinator.mix.published = some mix := by
  rcases (hx.mix_turn h).keeps_published hl.agree (hl.inside x.task) hp with hwithdraws | ⟨hsame, _⟩
  · rw [x.use?_after, if_pos rfl] at hwithdraws
    obtain ⟨task, hleft, huse⟩ := Option.bind_eq_some_iff.mp hwithdraws
    have hkept := hx.left_kept h hu hquiet hleft
    rw [Task.withdraws_of_mixUse? huse] at hkept
    cases hkept
  · exact hsame

/-- A negotiation that was prepared in a step without a mix of its own starts from the published one. -/
theorem current_left (hl : x.before.Locked) {n : Negotiation} {stage : NegotiationStage}
    {mix : SharedMix} (hleft : x.left = some (.negotiation n stage))
    (hmix : stage = .prepared ∧ n.snapshot = some mix ∨ stage = .creatingEndpoint mix) :
    x.after.coordinator.mix.published = some mix := by
  rcases hmix with ⟨rfl, hsnapshot⟩ | rfl
  · exact hx.published_stays h hu hquiet hl (hx.published_of_begins h hleft hsnapshot)
  · rcases hx.mix_origin h hleft with ⟨hwas, hsnapshot⟩ | hobtained
    · refine hx.published_stays h hu hquiet hl ?_
      exact hu.current x.task n _ mix ((hx.taken h).task.trans hwas) (Or.inl ⟨rfl, hsnapshot⟩)
    · exact (hx.mix_turn h).published_of_ret hl.agree hobtained

theorem undisturbed (hl : x.before.Locked) : x.after.Undisturbed where
  kept t task ht := by
    rw [x.get?_after] at ht
    split at ht
    · exact hx.left_kept h hu hquiet ht
    · exact hu.kept t task ht
  sound t pipeline fault hundoing := by
    by_cases hne : x.task = t
    · subst hne
      have hturn := hx.mix_turn h
      rw [hundoing] at hturn
      generalize x.before.use? x.task = use at hturn
      generalize x.obtained? = ret at hturn
      generalize x.after.coordinator.mix = m' at hturn
      generalize hreply : x.action.reply? = reply at hturn
      cases hturn with
      | queues _ hwaits => cases hwaits
      | mixerFailed => exact absurd (Action.disturbs_of_fault hreply) (by simp [hquiet])
    · rw [x.use?_after, if_neg hne] at hundoing
      exact hu.sound t pipeline fault hundoing
  current t n stage mix ht hmix := by
    rw [x.get?_after] at ht
    split at ht
    · exact hx.current_left h hu hquiet hl ht hmix
    · exact hx.published_stays h hu hquiet hl (hu.current t n stage mix ht hmix)
  accepted t task reply hm := by
    rw [after, log_take] at hm
    rcases List.mem_append.mp hm with hold | hnew
    · exact hu.accepted t task reply hold
    · obtain ⟨_, _, hreply⟩ := replied_of_mem_takeEvents hnew
      cases reply with
      | ok text => exact ⟨text, rfl⟩
      | error fault => exact absurd (Action.disturbs_of_fault hreply) (by simp [hquiet])

/-- When nothing goes wrong, a negotiation gives up only if its session was stopped. -/
theorem running?_of_gaveUp {n : Negotiation} {stage : NegotiationStage}
    (hwas : x.was = some (.negotiation n stage)) (hlive : stage.isLive)
    (hgave : x.result.task.gaveUp) :
    x.before.coordinator.registry.running? n.session n.attempt = none := by
  have ht := (hx.taken h).task.trans hwas
  cases hx with
  | request => cases hwas
  | @turn b t task _ hturn =>
    cases hwas
    cases stage with
    | prepared => exact Coordinator.running?_of_start hgave
    | obtainingMix request =>
      cases request with
      | waiting => exact Coordinator.running?_of_afterMix (fun _ _ => MixCell.enterRequest_succeeds) hgave
      | _ => cases hturn
    | connecting =>
      have hcall := call?_of_hasTurn hturn
      cases hrole : n.role <;> simp [Task.call?, NegotiationStage.call?, hrole] at hcall
    | _ => cases hturn
  | @reply b t task call reply _ hcall _ =>
    cases hwas
    have hrunning := Coordinator.running?_of_resume hlive ?_ ?_ ?_ hgave
    · rwa [b.coordinator.countRelease_registry] at hrunning
    · rintro fault rfl
      cases hquiet
    · rintro pipeline fault rfl
      refine hu.sound t pipeline fault ?_
      rw [use?, ht]
      rfl
    · rintro mix rfl
      rw [b.coordinator.countRelease_mix]
      exact hu.current t n _ mix ht (Or.inr rfl)

end Episode.Occurs

theorem undisturbed {actions : List Action} (hquiet : ∀ a ∈ actions, a.disturbs = false) :
    (run {} actions).Undisturbed := by
  refine later_induction [] (P := fun _ b => b.Undisturbed) undisturbed_empty ?_
  rintro _ x hu ⟨earlier, hbefore⟩ hx hm
  have h : x.before.Consistent := hbefore ▸ consistent earlier
  exact hx.undisturbed h hu (hquiet _ hm) (hbefore ▸ locked earlier)

end Broadcast

end Rostrum
