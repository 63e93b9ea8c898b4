import Rostrum.Proofs.Broadcast.Admission
import Rostrum.Proofs.Broadcast.Script
import Rostrum.Proofs.Broadcast.Undisturbed

/-!
# The calls of a negotiation

Main statement: the calls of a negotiation follow one script. It gets its mix, a presenter by making it
if there is none; it goes through its script on that mix until it is done, a call fails, or a stop is
noticed; and if it failed, it releases the port and the endpoint it has made, whatever becomes of the
releases. This holds of every negotiation in every run, also of several that one session leads at once.
-/

namespace Rostrum

open Exchange

namespace Broadcast

/-! ## The mix of a negotiation -/

/-- The request that a negotiation comes from, and what it saw of the mix then. -/
def Requested (steps : List Episode) (n : Negotiation) : Prop :=
  ∃ x ∈ steps, x.action = .request (.prepare n.session n.role n.offer) ∧
    (n.role = .presenter ∧ n.snapshot = none ∨
      n.role = .viewer ∧ ∃ mix, n.snapshot = some mix ∧ x.before.coordinator.mix.published = some mix)

/-- A presenter found no mix when it began to make one. -/
def Lacked (steps : List Episode) (n : Negotiation) : Prop :=
  n.role = .presenter ∧ ∃ x ∈ steps, x.issues? = some .createPipeline ∧
    x.before.coordinator.mix.published = none

/-- What a negotiation exchanges until it has its mix, and the mix it gets. -/
inductive Shares (steps : List Episode) (n : Negotiation) : List Exchange → Option SharedMix → Prop where
  | seen {x mix} : n.role = .viewer → x ∈ steps →
      x.action = .request (.prepare n.session n.role n.offer) →
      x.before.coordinator.mix.published = some mix → Shares steps n [] (some mix)
  | found {x mix} : n.role = .presenter → x ∈ steps → x.obtained? = some (.ok mix) →
      x.before.coordinator.mix.published = some mix → Shares steps n [] (some mix)
  | made {pipeline mixer} : Lacked steps n →
      Shares steps n
        [⟨.createPipeline, .ok pipeline⟩, ⟨.createMixer ⟨⟨pipeline⟩⟩, .ok mixer⟩]
        (some ⟨⟨⟨pipeline⟩⟩, ⟨⟨mixer⟩⟩⟩)
  | pipelineFailed {fault} : Lacked steps n →
      Shares steps n [⟨.createPipeline, .error fault⟩] none
  | mixerFailed {pipeline fault reply} : Lacked steps n →
      Shares steps n
        [⟨.createPipeline, .ok pipeline⟩, ⟨.createMixer ⟨⟨pipeline⟩⟩, .error fault⟩,
          ⟨.release ⟨pipeline⟩, reply⟩] none

/-- What a negotiation has exchanged as long as it has no mix. -/
inductive Seeks (steps : List Episode) (n : Negotiation) : NegotiationStage → List Exchange → Prop where
  | prepared : Seeks steps n .prepared []
  | waiting : n.role = .presenter → Seeks steps n (.obtainingMix .waiting) []
  | creatingPipeline : Lacked steps n → Seeks steps n (.obtainingMix .creatingPipeline) []
  | creatingMixer {pipeline} : Lacked steps n →
      Seeks steps n (.obtainingMix (.creatingMixer ⟨⟨pipeline⟩⟩)) [⟨.createPipeline, .ok pipeline⟩]
  | undoing {pipeline fault} : Lacked steps n →
      Seeks steps n (.obtainingMix (.undoing ⟨⟨pipeline⟩⟩ fault))
        [⟨.createPipeline, .ok pipeline⟩, ⟨.createMixer ⟨⟨pipeline⟩⟩, .error fault⟩]

/-- The calls that release the media objects some exchanges have made: the port first. -/
def takeDown (build : List Exchange) : List (EngineCall SessionId) :=
  (Exchange.made .port build ++ Exchange.made .endpoint build).map .release

/-- What a negotiation exchanges from its beginning to its result. -/
inductive Course (steps : List Episode) (n : Negotiation) :
    Except NegotiationFault String → List Exchange → Prop where
  | completes {share mix endpoint port candidates build answer} :
      Shares steps n share (some mix) → Builds n mix endpoint port candidates build →
      build.map call = n.script mix endpoint port candidates → (∀ x ∈ build, x.succeeded) →
      Course steps n (.ok answer) (share ++ build)
  | givesUp {share mix endpoint port candidates build taken fault} :
      Shares steps n share (some mix) → Builds n mix endpoint port candidates build →
      taken.map call = takeDown build → Course steps n (.error fault) (share ++ build ++ taken)
  | withoutMix {share fault} : Shares steps n share none → Course steps n (.error fault) share

theorem Seeks.seeksMix {steps : List Episode} {n : Negotiation} {stage : NegotiationStage}
    {xs : List Exchange} (h : Seeks steps n stage xs) : stage.seeksMix := by
  cases h <;> rfl

section More
variable {steps steps' : List Episode} (hsub : steps ⊆ steps') {n : Negotiation}
include hsub

theorem Requested.more (h : Requested steps n) : Requested steps' n := by
  obtain ⟨x, hx, h⟩ := h
  exact ⟨x, hsub hx, h⟩

theorem Lacked.more (h : Lacked steps n) : Lacked steps' n := by
  obtain ⟨hrole, x, hx, h⟩ := h
  exact ⟨hrole, x, hsub hx, h⟩

theorem Shares.more {share : List Exchange} {mix : Option SharedMix} (h : Shares steps n share mix) :
    Shares steps' n share mix := by
  cases h with
  | seen hrole hx haction hp => exact .seen hrole (hsub hx) haction hp
  | found hrole hx hobtained hp => exact .found hrole (hsub hx) hobtained hp
  | made h => exact .made (h.more hsub)
  | pipelineFailed h => exact .pipelineFailed (h.more hsub)
  | mixerFailed h => exact .mixerFailed (h.more hsub)

end More

theorem Shares.made_eq_nil {steps : List Episode} {n : Negotiation} {share : List Exchange}
    {mix : Option SharedMix} (h : Shares steps n share mix) {kind : ObjectKind} (hkind : kind.isMedia) :
    Exchange.made kind share = [] := by
  have hmedia : kind = .endpoint ∨ kind = .port := by
    cases kind <;> first | exact Or.inl rfl | exact Or.inr rfl | cases hkind
  cases h with
  | @mixerFailed pipeline fault reply => cases reply <;> obtain rfl | rfl := hmedia <;> rfl
  | _ => obtain rfl | rfl := hmedia <;> rfl

theorem Shares.takeDown_append {steps : List Episode} {n : Negotiation} {share : List Exchange}
    {mix : Option SharedMix} (h : Shares steps n share mix) (build : List Exchange) :
    takeDown (share ++ build) = takeDown build := by
  rw [takeDown, made_append, made_append, h.made_eq_nil rfl, h.made_eq_nil rfl]
  rfl

theorem Episode.Occurs.requested {x : Episode} (hx : x.Occurs) (h : x.before.Consistent)
    {n : Negotiation} (hleft : x.left = some (.negotiation n .prepared)) : Requested [x] n := by
  refine ⟨x, List.mem_singleton_self x, ?_⟩
  have hbegins := hx.prepared_origin h hleft
  cases hx with
  | turn | reply => cases hbegins
  | @request b q =>
    cases serve_begins hleft with
    | @prepare s role offer a snapshot =>
      refine ⟨rfl, ?_⟩
      change (serve b.coordinator ⟨b.nextTask⟩ (.prepare s role offer)).task.ongoing? = _ at hleft
      rcases Coordinator.prepare_cases h.wellFormed s role offer with
        ⟨fault, _, hprepare⟩ | ⟨a', r', hadmitted, hentered, hprepare⟩
      · simp only [serve, hprepare] at hleft
        cases hleft
      · simp only [serve, hprepare] at hleft
        cases hleft
        cases role with
        | presenter => exact Or.inl ⟨rfl, rfl⟩
        | viewer =>
          refine Or.inr ⟨rfl, ?_⟩
          cases hp : b.coordinator.mix.published with
          | some mix => exact ⟨mix, hp, rfl⟩
          | none => exact (hadmitted _ (.nothingPresented hentered.predecessor rfl hp)).elim

section Seeking
variable {x : Episode} (hx : x.Occurs) {n : Negotiation} {stage : NegotiationStage}
  (hwas : x.was = some (.negotiation n stage))
include hx hwas

/-- A negotiation that begins with a mix does not ask for one. -/
theorem Episode.Occurs.unshown {ret : Except EngineFault SharedMix} (hret : x.obtained? = some ret) :
    stage = .prepared → n.snapshot = none := by
  rintro rfl
  cases hx with
  | request => cases hwas
  | reply _ hcall =>
    cases hwas
    cases hcall
  | turn =>
    cases hwas
    cases hsnapshot : n.snapshot with
    | none => rfl
    | some mix => simp [obtained?, mixRequest?, hsnapshot] at hret

/-- A negotiation that asks for the mix and is not kept waiting is given a mix or a fault. -/
theorem Episode.Occurs.obtains (hseeks : stage.seeksMix)
    (hunshown : stage = .prepared → n.snapshot = none) (hunused : x.left.bind Task.mixUse? = none) :
    ∃ ret, x.obtained? = some ret := by
  have hdone : ∀ (c : Coordinator) (step : MixCell.RequestStep),
      x.result = c.afterMix n step → ∃ ret, step.1.done? = some ret := by
    intro c step hresult
    have huse := (c.afterMix_turn n step).2
    rw [← hresult] at huse
    obtain ⟨request | ret, m⟩ := step
    · exact absurd (huse.symm.trans hunused) nofun
    · exact ⟨ret, rfl⟩
  cases hx with
  | request => cases hwas
  | @turn b t task ht hturn =>
    cases hwas
    cases stage with
    | prepared =>
      have hnone := hunshown rfl
      simp only [obtained?, mixRequest?, hnone]
      refine hdone b.coordinator _ ?_
      simp only [Coordinator.stepTurn, Coordinator.start, hnone]
    | obtainingMix request =>
      cases request with
      | waiting => exact hdone b.coordinator _ rfl
      | _ => cases hturn
    | _ => cases hseeks
  | @reply b t task call reply ht hcall hadmits =>
    cases hwas
    cases stage with
    | prepared => cases hcall
    | obtainingMix request =>
      obtain ⟨ret, hret⟩ := hdone (b.coordinator.countRelease _ reply) _ rfl
      rw [b.coordinator.countRelease_mix] at hret
      exact ⟨ret, hret⟩
    | _ => cases hseeks

omit hx in
theorem Episode.exchange?_of_was : x.exchange? = Exchange.of? (stage.call? n) x.action.reply? := by
  rw [exchange?, hwas]
  rfl

end Seeking

theorem Requested.presents {steps : List Episode} {n : Negotiation} (h : Requested steps n)
    (hunshown : n.snapshot = none) : n.role = .presenter := by
  obtain ⟨_, _, _, ⟨hrole, _⟩ | ⟨_, mix, hsome, _⟩⟩ := h
  · exact hrole
  · rw [hunshown] at hsome
    cases hsome

section Seeking
variable {x : Episode} (hx : x.Occurs) (h : x.before.Consistent) (hl : x.before.Locked)
  {n : Negotiation} {stage : NegotiationStage} (hwas : x.was = some (.negotiation n stage))
  {steps : List Episode} (hrequested : Requested steps n) {xs : List Exchange}
  (hs : Seeks steps n stage xs)
include hx h hl hwas hrequested hs

/-- The steps of a negotiation that waits for its mix, or makes it. -/
theorem Seeks.waits (hunshown : stage = .prepared → n.snapshot = none) {request : MixRequest}
    (hleft : x.left = some (.negotiation n (.obtainingMix request))) :
    Seeks (steps ++ [x]) n (.obtainingMix request) (xs ++ x.exchange?.toList) := by
  have hturn := hx.turns h
  have huse : Coordinator.mixUseOf x.result = some (.request request) := by
    change x.left.bind _ = _
    rw [hleft]
    rfl
  have hlacked : n.role = .presenter → request = .creatingPipeline →
      x.before.coordinator.mix.made = none → Lacked (steps ++ [x]) n := by
    rintro hrole rfl hmade
    refine ⟨hrole, x, by simp, ?_, hl.agree.symm.trans hmade⟩
    rw [Episode.issues?, hleft]
    rfl
  have hmore : Lacked steps n → Lacked (steps ++ [x]) n := Lacked.more (List.subset_append_left _ _)
  rw [Turns, huse, hwas] at hturn
  rw [Episode.exchange?_of_was hwas]
  generalize x.action.reply? = reply at hturn
  generalize x.obtained? = ret at hturn
  generalize x.result.coordinator.mix = m' at hturn
  cases hs with
  | prepared =>
    have hrole := hrequested.presents (hunshown rfl)
    cases hturn with
    | queues _ hwaits =>
      cases request <;> cases hwaits
      exact .waiting hrole
    | begins henters hmade => exact .creatingPipeline (hlacked hrole rfl hmade)
  | waiting hrole =>
    cases hturn with
    | begins henters hmade => exact .creatingPipeline (hlacked hrole rfl hmade)
  | creatingPipeline hlacks =>
    cases hturn with
    | pipelineMade => exact .creatingMixer (hmore hlacks)
    | begins henters => cases henters
  | creatingMixer hlacks =>
    cases hturn with
    | mixerFailed => exact .undoing (hmore hlacks)
    | begins henters => cases henters
  | undoing hlacks =>
    cases hturn with
    | begins henters => cases henters

/-- The step in which a negotiation is given its mix, or learns that there is none. -/
theorem Seeks.obtains {ret : Except EngineFault SharedMix} (hret : x.obtained? = some ret) :
    Shares (steps ++ [x]) n (xs ++ x.exchange?.toList) ret.toOption := by
  have hunshown := hx.unshown hwas hret
  have hturn := hx.turns h
  have hfound : n.role = .presenter → ∀ mix, ret = .ok mix →
      x.before.coordinator.mix.made = some mix → Shares (steps ++ [x]) n [] (some mix) := by
    rintro hrole mix rfl hmade
    exact .found hrole (by simp) hret (hl.agree.symm.trans hmade)
  have hmore : Lacked steps n → Lacked (steps ++ [x]) n := Lacked.more (List.subset_append_left _ _)
  rw [Turns, hret, hwas] at hturn
  rw [Episode.exchange?_of_was hwas]
  generalize x.action.reply? = reply at hturn
  generalize x.result.coordinator.mix = m' at hturn
  generalize Coordinator.mixUseOf x.result = use' at hturn
  cases hs with
  | prepared =>
    have hrole := hrequested.presents (hunshown rfl)
    cases hturn with
    | finds henters hmade => exact hfound hrole _ rfl hmade
  | waiting hrole =>
    cases hturn with
    | finds henters hmade => exact hfound hrole _ rfl hmade
  | creatingPipeline hlacks =>
    cases hturn with
    | pipelineFailed => exact .pipelineFailed (hmore hlacks)
    | finds henters => cases henters
  | creatingMixer hlacks =>
    cases hturn with
    | mixerMade => exact .made (hmore hlacks)
    | finds henters => cases henters
  | undoing hlacks =>
    cases hturn with
    | undone => exact .mixerFailed (hmore hlacks)
    | finds henters => cases henters

/-- Who no longer asks for the mix has it, or there is none to be had. -/
theorem Seeks.leaves (hunused : x.left.bind Task.mixUse? = none) :
    ∃ shared, Shares (steps ++ [x]) n (xs ++ x.exchange?.toList) shared ∧
      ∀ mix, x.left = some (.negotiation n (.creatingEndpoint mix)) → shared = some mix := by
  by_cases hunshown : stage = .prepared → n.snapshot = none
  · obtain ⟨ret, hret⟩ := hx.obtains hwas hs.seeksMix hunshown hunused
    refine ⟨ret.toOption, hs.obtains hx h hl hwas hrequested hret, fun mix hleft => ?_⟩
    rcases hx.mix_origin h hleft with ⟨hprepared, hshown⟩ | hobtained
    · rw [hwas] at hprepared
      cases hprepared
      rw [hunshown rfl] at hshown
      cases hshown
    · rw [hret] at hobtained
      cases hobtained
      rfl
  · push Not at hunshown
    obtain ⟨rfl, hsome⟩ := hunshown
    obtain ⟨y, hy, haction, ⟨_, hnone⟩ | ⟨hrole, mix, hshown, hp⟩⟩ := hrequested
    · exact (hsome hnone).elim
    · cases hs
      rw [Episode.exchange?_of_was hwas]
      refine ⟨some mix, .seen hrole (List.mem_append_left _ hy) haction hp, fun mix' hleft => ?_⟩
      rcases hx.mix_origin h hleft with ⟨_, hshown'⟩ | hobtained
      · exact hshown.symm.trans hshown'
      · exact (hsome (hx.unshown hwas hobtained rfl)).elim

end Seeking

/-! ## The steps of a negotiation that builds -/

theorem advances_of_drained {c : Coordinator} {n : Negotiation} {stage stage' : NegotiationStage}
    {endpoint : Endpoint} {text : String} (hdrained : stage.Drained endpoint) (hlive : stage'.isLive)
    (h : (c.resume n stage (.ok text)).task.ongoing? = some (.negotiation n stage')) :
    Advances stage text stage' := by
  have habort : ∀ fault, (c.abort n fault).task.ongoing? ≠ some (.negotiation n stage') := by
    intro fault hleft
    rw [Coordinator.abort_not_live hleft] at hlive
    cases hlive
  cases hdrained with
  | subscribing =>
    simp only [Coordinator.resume, Coordinator.advanceChecked] at h
    split at h
    · cases h
      exact .subscribed
    · exact (habort _ h).elim
  | offering =>
    simp only [Coordinator.resume, Coordinator.answered] at h
    split at h
    · cases h
      exact .answered
    · exact (habort _ h).elim
  | gathering =>
    simp only [Coordinator.resume, Coordinator.complete] at h
    split at h
    · exact (habort _ h).elim
    · cases h

theorem Episode.Occurs.advances {x : Episode} (hx : x.Occurs) (h : x.before.Consistent)
    {n : Negotiation} {stage stage' : NegotiationStage} (hwas : x.was = some (.negotiation n stage))
    (hseeks : stage.seeksMix = false) (hleft : x.left = some (.negotiation n stage'))
    (hlive : stage'.isLive) :
    ∃ text, x.action.reply? = some (.ok text) ∧ Advances stage text stage' := by
  have hmove := (hx.taken h).follows.move
  rw [hwas, ← Episode.left, hleft] at hmove
  generalize hreply : x.action.reply? = reply at hmove
  generalize x.calls = calls at hmove
  cases hmove with
  | disposes _ hd | givesUp _ _ hd => exact absurd hlive (by simp [hd.not_live rfl])
  | waits hs | obtains hs =>
    rw [hseeks] at hs
    cases hs
  | endpointMade => exact ⟨_, rfl, .endpointMade⟩
  | portMade => exact ⟨_, rfl, .portMade⟩
  | applying hdrains => exact ⟨_, rfl, .applies hdrains⟩
  | drained hdrains => exact ⟨_, rfl, .drained hdrains⟩
  | @goesOn _ _ _ _ text hdrained =>
    refine ⟨text, rfl, ?_⟩
    cases hx with
    | request | turn => cases hreply
    | reply =>
      cases hwas
      cases hreply
      exact advances_of_drained hdrained hlive hleft

theorem Episode.Occurs.creates_of_seeks {x : Episode} (hx : x.Occurs) (h : x.before.Consistent)
    {n : Negotiation} {stage stage' : NegotiationStage} (hwas : x.was = some (.negotiation n stage))
    (hseeks : stage.seeksMix) (hleft : x.left = some (.negotiation n stage')) (hlive : stage'.isLive)
    (hseeks' : stage'.seeksMix = false) : ∃ mix, stage' = .creatingEndpoint mix := by
  have hmove := (hx.taken h).follows.move
  rw [hwas, ← Episode.left, hleft] at hmove
  generalize x.action.reply? = reply at hmove
  generalize x.calls = calls at hmove
  cases hmove with
  | disposes _ hd | givesUp _ _ hd => exact absurd hlive (by simp [hd.not_live rfl])
  | waits => cases hseeks'
  | obtains => exact ⟨_, rfl⟩
  | endpointMade | portMade => cases hseeks
  | applying hdrains | drained hdrains => cases hdrains <;> cases hseeks
  | goesOn hdrained => cases hdrained <;> cases hseeks

/-! ## The course of a negotiation -/

/-- What a negotiation has exchanged when it has come to a stage. -/
inductive Reached (steps : List Episode) (n : Negotiation) :
    NegotiationStage → List Exchange → Prop where
  | seeks {stage xs} : Seeks steps n stage xs → Reached steps n stage xs
  | builds {share mix endpoint port applied stage build} :
      Shares steps n share (some mix) → Built n mix endpoint port applied stage build →
      Reached steps n stage (share ++ build)
  | releases {share mix endpoint port candidates build taken fault e o rest} :
      Shares steps n share (some mix) → Builds n mix endpoint port candidates build →
      taken.map call ++ (o :: rest).map .release = takeDown build →
      Reached steps n (.releasing fault e o rest) (share ++ build ++ taken)

/-- What some steps of a negotiation have come to. -/
inductive Runs (steps : List Episode) (r : Registry) (n : Negotiation) :
    Progress Task Ending → Prop where
  | goesOn {stage} : Requested steps n →
      issuedBy steps = (exchanges steps).map call ++ (stage.call? n).toList →
      (stage.isLive → Equips r n (exchanges steps)) → Reached steps n stage (exchanges steps) →
      Runs steps r n (.ongoing (.negotiation n stage))
  | ends {result} : Requested steps n → issuedBy steps = (exchanges steps).map call →
      Course steps n result (exchanges steps) → Runs steps r n (.done (.negotiated result))

section Runs
variable {steps : List Episode} {r : Registry} {n : Negotiation}

/-- A negotiation that gives up releases what it has made, or is done if that is nothing. -/
theorem Runs.givesUp {share build taken : List Exchange} {mix : SharedMix} {endpoint : Endpoint}
    {port : MixerPort} {candidates : List Candidate} {c : Coordinator} {fault : NegotiationFault}
    {e : Entry} {objects : List ObjectId} {result : StepResult} (hrequested : Requested steps n)
    (hresult : result = c.giveUp n fault e objects)
    (hissued : issuedBy steps =
      (exchanges steps).map call ++ (result.task.ongoing?.bind Task.call?).toList)
    (hexchanges : exchanges steps = share ++ build ++ taken)
    (hshares : Shares steps n share (some mix))
    (hbuilds : Builds n mix endpoint port candidates build)
    (hobjects : taken.map call ++ objects.map .release = takeDown build) :
    Runs steps r n result.task := by
  subst hresult
  cases objects with
  | nil =>
    refine .ends hrequested ?_ ?_
    · rw [hissued]
      exact List.append_nil _
    · rw [hexchanges]
      rw [List.map_nil, List.append_nil] at hobjects
      exact .givesUp hshares hbuilds hobjects
  | cons o rest =>
    refine .goesOn hrequested hissued (fun hlive => by cases hlive) ?_
    rw [hexchanges]
    exact .releases hshares hbuilds hobjects

end Runs

section Steps
variable {x : Episode} (hx : x.Occurs) (h : x.before.Consistent) {n : Negotiation}
  {stage : NegotiationStage} (hwas : x.was = some (.negotiation n stage)) (hlive : stage.isLive)
  {steps : List Episode} (hequips : Equips x.before.coordinator.registry n (exchanges steps))
include hx h hwas hlive hequips

theorem Equips.asks {stage' : NegotiationStage}
    (hleft : x.result.task = .ongoing (.negotiation n stage')) (hlive' : stage'.isLive) :
    Equips x.after.coordinator.registry n (exchanges (steps ++ [x])) := by
  intro e' he'
  obtain ⟨e, he, _, hfits⟩ := h.hasEntry_before (hx.taken h).task n stage hwas hlive
  rw [hx.registry_after h, Episode.calls_of_live hwas hlive, negotiationCalls, hleft] at he'
  simp only [Progress.gaveUp, hlive', Bool.not_true, Bool.false_eq_true, if_false,
    List.append_nil] at he'
  rw [exchanges_append, Episode.exchange?_of_was hwas]
  exact (hequips e he).asks h.wellFormed he hfits he'

theorem Equips.objects {e' : Entry}
    (he' : (x.before.coordinator.registry.after (stage.asks n x.action.reply?).toList).attempt?
      n.session n.attempt = some e') :
    e'.objects.map EngineCall.release = takeDown (exchanges (steps ++ [x])) := by
  obtain ⟨e, he, _, hfits⟩ := h.hasEntry_before (hx.taken h).task n stage hwas hlive
  rw [exchanges_append, Episode.exchange?_of_was hwas, takeDown]
  exact congrArg _ ((hequips e he).asks h.wellFormed he hfits he').objects

end Steps

section Steps
variable {x : Episode} (hx : x.Occurs) (h : x.before.Consistent) (hl : x.before.Locked)
  {n : Negotiation} {stage : NegotiationStage} (hwas : x.was = some (.negotiation n stage))
  {steps : List Episode} (hrequested : Requested steps n)
  (hissued : issuedBy (steps ++ [x]) =
    (exchanges (steps ++ [x])).map call ++ (x.result.task.ongoing?.bind Task.call?).toList)
  (hequips : stage.isLive → Equips x.before.coordinator.registry n (exchanges steps))
include hx h hwas hrequested hissued hequips

include hl in
theorem Seeks.runs (hs : Seeks steps n stage (exchanges steps)) :
    Runs (steps ++ [x]) x.after.coordinator.registry n x.result.task := by
  have hmore := hrequested.more (List.subset_append_left steps [x])
  have hseeks := hs.seeksMix
  have hlive := NegotiationStage.isLive_of_seeksMix hseeks
  have hleaves := hs.leaves hx h hl hwas hrequested
  rw [← exchanges_append] at hleaves
  have hconducts := hx.conducts h hwas hlive
  generalize hresult : x.result = result at hconducts
  cases hconducts with
  | @waits c' request _ hunshown =>
    have htask : x.result.task = .ongoing (.negotiation n (.obtainingMix request)) := by rw [hresult]
    rw [← hresult, htask]
    rw [htask] at hissued
    refine .goesOn hmore hissued ((hequips hlive).asks hx h hwas hlive htask) (.seeks ?_)
    rw [exchanges_append]
    exact hs.waits hx h hl hwas hrequested hunshown (by rw [Episode.left, htask]; rfl)
  | @goesOn c' stage' _ _ hlive' hseeks' =>
    have htask : x.result.task = .ongoing (.negotiation n stage') := by rw [hresult]
    have hleft : x.left = some (.negotiation n stage') := by rw [Episode.left, htask]; rfl
    obtain ⟨mix, rfl⟩ := hx.creates_of_seeks h hwas hseeks hleft hlive' hseeks'
    obtain ⟨shared, hshares, hmix⟩ := hleaves (by rw [hleft]; rfl)
    obtain rfl := hmix mix hleft
    rw [← hresult, htask]
    rw [htask] at hissued
    refine .goesOn hmore hissued ((hequips hlive).asks hx h hwas hlive htask) ?_
    rw [← List.append_nil (exchanges _)]
    exact .builds hshares (built_nil n mix ⟨⟨""⟩⟩ ⟨⟨""⟩⟩)
  | completes hstage =>
    rw [hstage] at hseeks
    cases hseeks
  | @givesUp c' fault e he =>
    obtain ⟨shared, hshares, _⟩ := hleaves (by
      rw [Episode.left, hresult, Coordinator.giveUp_ongoing?]
      split <;> rfl)
    have hobjects := (hequips hlive).objects hx h hwas hlive he
    rw [← List.append_nil (exchanges _), hshares.takeDown_append] at hobjects
    have hbare : e.objects = [] := List.map_eq_nil_iff.mp hobjects
    rw [← hresult]
    cases shared with
    | none =>
      rw [hbare] at hresult
      have htask : x.result.task = .done (.negotiated (.error fault)) := by rw [hresult]; rfl
      rw [htask] at hissued ⊢
      exact .ends hmore (hissued.trans (List.append_nil _)) (.withoutMix hshares)
    | some mix =>
      refine Runs.givesUp hmore hresult hissued ?_ hshares
        (builds_nil n mix ⟨⟨""⟩⟩ ⟨⟨""⟩⟩) (?_ : ([] : List Exchange).map call ++ _ = _)
      · simp
      · exact hobjects

/-- The calls of a negotiation that builds: it goes on, it is done, or it takes down what it made. -/
theorem Built.runs {share build : List Exchange} {mix : SharedMix} {endpoint : Endpoint}
    {port : MixerPort} {applied : List Candidate} (hshares : Shares steps n share (some mix))
    (hb : Built n mix endpoint port applied stage build) (hexchanges : exchanges steps = share ++ build) :
    Runs (steps ++ [x]) x.after.coordinator.registry n x.result.task := by
  have hmore := hrequested.more (List.subset_append_left steps [x])
  have hshared := hshares.more (List.subset_append_left steps [x])
  obtain ⟨call, hlive, hseeks, hcall⟩ := hb.calls.call?
  obtain ⟨reply, hreply⟩ := Option.isSome_iff_exists.mp
    ((hx.taken h).replied _ hwas (Option.isSome_of_eq_some hcall))
  have hmade : exchanges (steps ++ [x]) = share ++ (build ++ [⟨call, reply⟩]) := by
    rw [exchanges_append, hexchanges, Episode.exchange?_of_was hwas, hcall, hreply, List.append_assoc]
    rfl
  have hconducts := hx.conducts h hwas hlive
  generalize hresult : x.result = result at hconducts
  cases hconducts with
  | waits hs =>
    rw [hseeks] at hs
    cases hs
  | @goesOn c' stage' _ _ hlive' =>
    have htask : x.result.task = .ongoing (.negotiation n stage') := by rw [hresult]
    have hleft : x.left = some (.negotiation n stage') := by rw [Episode.left, htask]; rfl
    obtain ⟨text, htext, hadvances⟩ := hx.advances h hwas hseeks hleft hlive'
    obtain rfl := Option.some.inj (hreply.symm.trans htext)
    obtain ⟨endpoint', port', applied', hb'⟩ := hb.advance hcall hadvances
    rw [← hresult, htask]
    rw [htask] at hissued
    refine .goesOn hmore hissued ((hequips hlive).asks hx h hwas hlive htask) ?_
    rw [hmade]
    exact .builds hshared hb'
  | @completes c' e answer text hstage htext =>
    subst hstage
    obtain rfl := Option.some.inj hcall
    obtain rfl := Option.some.inj (hreply.symm.trans htext)
    obtain ⟨endpoint', port', hbuilds, hall⟩ := hb.complete text
    have htask : x.result.task = .done (.negotiated (.ok answer)) := by rw [hresult]
    rw [← hresult, htask]
    rw [htask] at hissued
    refine .ends hmore (hissued.trans (List.append_nil _)) ?_
    rw [hmade]
    exact .completes hshared hbuilds hall (hb.succeeds text)
  | @givesUp c' fault e he =>
    obtain ⟨endpoint', port', candidates, hbuilds⟩ := hb.cut hcall reply
    have hobjects := (hequips hlive).objects hx h hwas hlive he
    rw [hmade, hshared.takeDown_append] at hobjects
    rw [← hresult]
    refine Runs.givesUp hmore hresult hissued ?_ hshared hbuilds
      (?_ : ([] : List Exchange).map Exchange.call ++ _ = _)
    · rw [hmade, List.append_nil]
    · exact hobjects

omit h hequips in
/-- The releases of a negotiation that failed, whatever the engine says to them. -/
theorem Builds.runs {share build taken : List Exchange} {mix : SharedMix} {endpoint : Endpoint}
    {port : MixerPort} {candidates : List Candidate} {fault : NegotiationFault} {e : Entry}
    {o : ObjectId} {rest : List ObjectId} (hstage : stage = .releasing fault e o rest)
    (hshares : Shares steps n share (some mix))
    (hbuilds : Builds n mix endpoint port candidates build)
    (hobjects : taken.map call ++ (o :: rest).map .release = takeDown build)
    (hexchanges : exchanges steps = share ++ build ++ taken) :
    Runs (steps ++ [x]) x.after.coordinator.registry n x.result.task := by
  subst hstage
  obtain ⟨c, reply, hreply, hresult, _⟩ := hx.releases hwas
  have hmade : exchanges (steps ++ [x]) = share ++ build ++ (taken ++ [⟨.release o, reply⟩]) := by
    rw [exchanges_append, hexchanges, Episode.exchange?_of_was hwas, hreply]
    simp only [NegotiationStage.call?, Exchange.of?, Option.toList_some, List.append_assoc]
  refine Runs.givesUp (hrequested.more (List.subset_append_left _ _)) hresult hissued hmade
    (hshares.more (List.subset_append_left _ _)) hbuilds ?_
  rw [← hobjects, List.map_append, List.append_assoc]
  rfl

end Steps

theorem runs (actions : List Action) :
    (∀ t n stage, (run {} actions).tasks.get? t = some (.negotiation n stage) →
      Runs (stepsOf (history {} actions) t) (run {} actions).coordinator.registry n
        (.ongoing (.negotiation n stage))) ∧
    ∀ x ∈ history {} actions, ∀ n stage ending, x.was = some (.negotiation n stage) →
      x.result.task = .done ending →
      Runs (stepsOf (history {} actions) x.task) x.after.coordinator.registry n (.done ending) := by
  -- What is to be released is read back from the registry, so the entry is carried along (`Equips`),
  -- through the steps of all other tasks as well.
  refine negotiations_induction (P := fun steps b n progress =>
    Runs steps b.coordinator.registry n progress) ?_ ?_ ?_ actions
  · intro x n hx h hwas hleft
    have hnone : x.exchange? = none := by rw [Episode.exchange?, hwas]; rfl
    have hexchanges : exchanges [x] = [] := List.filterMap_cons_none hnone
    refine .goesOn (hx.requested h hleft) ?_ (fun _ e he => ?_) ?_
    · have hissues : x.issues? = none := by rw [Episode.issues?, hleft]; rfl
      rw [hexchanges]
      exact List.filterMap_cons_none hissues
    · have hafter : x.after.Consistent := h.take (hx.taken h).task (hx.taken h).follows
      have hleads : x.after.Leads x.task n .prepared := ⟨by rw [x.get?_after, if_pos rfl, hleft], rfl⟩
      obtain ⟨e', he', _, hendpoint, hport, _⟩ := hafter.hasEntry x.task n .prepared hleads
      cases he.symm.trans he'
      rw [hexchanges]
      exact ⟨by rw [hendpoint]; rfl, by rw [hport]; rfl⟩
    · rw [hexchanges]
      exact .seeks .prepared
  · rintro steps x n stage ⟨earlier, hbefore⟩ hx hwas hr
    have h : x.before.Consistent := hbefore ▸ consistent earlier
    have hl : x.before.Locked := hbefore ▸ locked earlier
    cases hr with
    | goesOn hrequested hissued hequips hreached =>
      have hissued' : issuedBy (steps ++ [x]) = (exchanges (steps ++ [x])).map call ++
          (x.result.task.ongoing?.bind Task.call?).toList := by
        rw [issuedBy_append, hissued, exchanges_append, List.map_append, hx.exchange_call, hwas]
        rfl
      generalize hxs : exchanges steps = xs at hreached
      cases hreached with
      | seeks hs => exact Seeks.runs hx h hl hwas hrequested hissued' hequips (hxs ▸ hs)
      | builds hshares hb => exact Built.runs hx h hwas hrequested hissued' hequips hshares hb hxs
      | releases hshares hbuilds hobjects =>
        exact Builds.runs hx hwas hrequested hissued' rfl hshares hbuilds hobjects hxs
  · intro steps x t n stage hx h hne ht hr
    cases hr with
    | goesOn hrequested hissued hequips hreached =>
      exact .goesOn hrequested hissued (fun hlive => (hequips hlive).keeps hx h hne ⟨ht, hlive⟩) hreached

/-! ## Calls -/

theorem Course.viewer {steps : List Episode} {n : Negotiation}
    {result : Except NegotiationFault String} {xs : List Exchange} (h : Course steps n result xs)
    (hrole : n.role = .viewer) :
    ∀ call ∈ xs.map Exchange.call, call.creates? ≠ some .pipeline ∧ call.creates? ≠ some .mixer := by
  have hshare : ∀ share mix, Shares steps n share mix → share = [] := by
    intro share mix hshares
    cases hshares with
    | seen | found => rfl
    | made hlacks | pipelineFailed hlacks | mixerFailed hlacks =>
      rw [hlacks.1] at hrole
      cases hrole
  intro call hcall
  cases h with
  | completes hshares hbuilds =>
    rw [hshare _ _ hshares] at hcall
    exact Negotiation.script_creates (hbuilds.calls.subset hcall)
  | givesUp hshares hbuilds htaken =>
    rw [hshare _ _ hshares, List.nil_append, List.map_append] at hcall
    rcases List.mem_append.mp hcall with hcall | hcall
    · exact Negotiation.script_creates (hbuilds.calls.subset hcall)
    · rw [htaken] at hcall
      obtain ⟨o, _, rfl⟩ := List.mem_map.mp hcall
      exact ⟨nofun, nofun⟩
  | withoutMix hshares =>
    rw [hshare _ _ hshares] at hcall
    cases hcall

def failing (calls : List (EngineCall SessionId)) : List Exchange :=
  calls.map fun call => ⟨call, .error (.unreachable "")⟩

theorem calls_failing (calls : List (EngineCall SessionId)) : (failing calls).map call = calls := by
  rw [failing, List.map_map]
  exact List.map_id calls

/--
What a negotiation has called so far, and the call it waits for, begin a course: the call may fail, and
so may the releases that follow.
-/
theorem Reached.course {steps : List Episode} {n : Negotiation} {stage : NegotiationStage}
    {xs : List Exchange} (h : Reached steps n stage xs) :
    xs.map call ++ (stage.call? n).toList = [] ∨
      ∃ result ys, Course steps n result ys ∧
        xs.map call ++ (stage.call? n).toList <+: ys.map call := by
  cases h with
  | seeks hs =>
    cases hs with
    | prepared | waiting => exact Or.inl rfl
    | creatingPipeline hlacks =>
      exact Or.inr ⟨.error .stopped, failing [.createPipeline], .withoutMix (.pipelineFailed hlacks),
        List.prefix_refl _⟩
    | @creatingMixer pipeline hlacks =>
      exact Or.inr ⟨.error .stopped, ⟨.createPipeline, .ok pipeline⟩ ::
        failing [.createMixer ⟨⟨pipeline⟩⟩, .release ⟨pipeline⟩], .withoutMix (.mixerFailed hlacks),
        List.prefix_append _ [EngineCall.release ⟨pipeline⟩]⟩
    | @undoing pipeline fault hlacks =>
      exact Or.inr ⟨.error .stopped, ⟨.createPipeline, .ok pipeline⟩ ::
        ⟨.createMixer ⟨⟨pipeline⟩⟩, .error fault⟩ :: failing [.release ⟨pipeline⟩],
        .withoutMix (.mixerFailed hlacks), List.prefix_refl _⟩
  | builds hshares hb =>
    obtain ⟨waited, _, _, hcall⟩ := hb.calls.call?
    obtain ⟨endpoint', port', candidates, hbuilds⟩ := hb.cut hcall (.error (.unreachable ""))
    refine Or.inr ⟨.error .stopped, _, .givesUp hshares hbuilds (calls_failing _), ?_⟩
    rw [hcall]
    simp
  | releases hshares hbuilds hobjects =>
    refine Or.inr ⟨.error .stopped, _, .givesUp hshares hbuilds (calls_failing _), ?_⟩
    simp [calls_failing, ← hobjects, NegotiationStage.call?]

/-- The calls of a negotiation that is done. -/
structure Scripted (steps : List Episode) (n : Negotiation) (result : Except NegotiationFault String) :
    Prop where
  requested : ∃ x ∈ steps, x.action = .request (.prepare n.session n.role n.offer)
  answered : issuedBy steps = (exchanges steps).map call
  course : Course steps n result (exchanges steps)
  viewer : n.role = .viewer →
    ∀ call ∈ issuedBy steps, call.creates? ≠ some .pipeline ∧ call.creates? ≠ some .mixer

/--
**The calls of every negotiation follow one script**, in every run, whatever fails and whoever is stopped.
A negotiation that is done has called what its course tells, and has had an answer to each call. One that
is under way has called what some course begins with.
-/
theorem calls_follow_script (actions : List Action) :
    (∀ x ∈ history {} actions, ∀ n stage ending, x.was = some (.negotiation n stage) →
      x.result.task = .done ending → ∃ result, ending = .negotiated result ∧
        Scripted (stepsOf (history {} actions) x.task) n result) ∧
    ∀ t n stage, (run {} actions).tasks.get? t = some (.negotiation n stage) →
      issuedBy (stepsOf (history {} actions) t) = [] ∨
      ∃ result xs, Course (stepsOf (history {} actions) t) n result xs ∧
        issuedBy (stepsOf (history {} actions) t) <+: xs.map call := by
  obtain ⟨hunderway, hended⟩ := runs actions
  constructor
  · intro x hx n stage ending hwas hdone
    cases hended x hx n stage ending hwas hdone with
    | @ends result hrequested hissued hcourse =>
      obtain ⟨y, hy, haction, _⟩ := hrequested
      refine ⟨result, rfl, ⟨y, hy, haction⟩, hissued, hcourse, fun hrole => ?_⟩
      rw [hissued]
      exact hcourse.viewer hrole
  · intro t n stage ht
    cases hunderway t n stage ht with
    | goesOn _ hissued _ hreached =>
      rw [hissued]
      exact hreached.course

/-- A presenter makes the mix, an endpoint and a port. They are not connected, and the port stays. -/
def linkFails : List Action :=
  [.request (.prepare ⟨1⟩ .presenter "offer"), .turn ⟨0⟩, .reply ⟨0⟩ (.ok "pipeline"),
    .reply ⟨0⟩ (.ok "mixer"), .reply ⟨0⟩ (.ok "endpoint"), .reply ⟨0⟩ (.ok "port"),
    .reply ⟨0⟩ (.error (.unreachable "")), .reply ⟨0⟩ (.error (.unknownObject "port")),
    .reply ⟨0⟩ (.ok "")]

theorem released_after_failed_link :
    let steps := stepsOf (history {} linkFails) ⟨0⟩
    issuedBy steps = [.createPipeline, .createMixer ⟨⟨"pipeline"⟩⟩, .createEndpoint ⟨⟨"pipeline"⟩⟩,
      .createPort ⟨⟨"mixer"⟩⟩, .connect ⟨"endpoint"⟩ ⟨"port"⟩, .release ⟨"port"⟩,
      .release ⟨"endpoint"⟩] ∧
    Scripted steps ⟨⟨1⟩, ⟨1⟩, .presenter, "offer", none⟩ (.error (.engine (.unreachable ""))) := by
  intro steps
  refine ⟨rfl, ?_⟩
  have hx := List.mem_of_getElem? (l := history {} linkFails) (i := 8) rfl
  obtain ⟨result, hresult, hscripted⟩ := (calls_follow_script linkFails).1 _ hx _ _ _ rfl rfl
  cases hresult
  exact hscripted

end Broadcast
end Rostrum
