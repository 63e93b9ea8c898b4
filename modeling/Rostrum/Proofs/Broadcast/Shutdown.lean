import Rostrum.Proofs.Broadcast.SharedMix

/-!
# What a shutdown leaves behind

A shutdown stops one session after the other and withdraws the mix in the end, while negotiations go on
beside it. Two invariants are kept from its first step to the end of the run: every session that was not
stopped is still to be stopped, and nobody requests the mix once the shutdown has withdrawn it. The
second one holds only if every negotiation that needs the mix had begun when the shutdown came. One that
begins later finds no mix, makes another one, and nobody releases it.
-/

namespace Rostrum

open Broadcast

namespace MixCell.Turn
variable {m m' : MixCell} {t : TaskId} {use' : Option MixUse} {reply : Option Reply}
  {ret : Option (Except EngineFault SharedMix)}

/-- Who waited to withdraw the mix leaves none when its turn comes. -/
theorem withdraws (h : m.Turn t (some (.withdrawal .waiting)) reply use' ret m') :
    m.holder = some t ∧ m'.published = none := by
  cases h with
  | begins henters | finds henters => cases henters
  | takesOut henters =>
    cases henters with
    | handed hheld => exact ⟨hheld, rfl⟩
  | takesNothing henters =>
    cases henters with
    | handed hheld => exact ⟨hheld, unlock_published _⟩

end MixCell.Turn

namespace Broadcast

/-- Whether an action asks for something new: a role, or the mix alone. -/
def Action.begins : Action → Bool
  | .request (.prepare _ _ _) => true
  | .request .requestMix => true
  | _ => false

/-- The sessions that a shutdown has still to stop. -/
def leftBy : Option Task → List SessionId
  | some (.shutdown (.stopping _ left)) => left
  | _ => []

/-- Every session that was not stopped is left to a shutdown. -/
def Stopping (b : Broadcast) (t : TaskId) : Prop :=
  ∀ s e, b.coordinator.registry.entry? s = some e → e.stopped ∨ s ∈ leftBy (b.tasks.get? t)

/-- Every negotiation that requests the mix has begun to. -/
def Underway (b : Broadcast) : Prop :=
  ∀ t n, b.tasks.get? t = some (.negotiation n .prepared) → n.snapshot.isSome

/-- How far a shutdown is from having withdrawn the mix for good. -/
inductive Winds (b : Broadcast) (t : TaskId) : Prop where
  | stopping {d : Teardown} {left : List SessionId} :
      b.tasks.get? t = some (.shutdown (.stopping d left)) → Winds b t
  /-- All requests for the mix stand before the shutdown. -/
  | queued {ahead behind : List TaskId} : b.use? t = some (.withdrawal .waiting) →
      b.coordinator.mix.queue = ahead ++ t :: behind →
      (∀ t' stage, b.use? t' = some (.request stage) → t' ∈ ahead) → Winds b t
  | withdrawn : (∀ t' stage, b.use? t' ≠ some (.request stage)) →
      b.coordinator.mix.published = none → Winds b t

/-! ## The sessions -/

theorem shutdownFrom_stops (t : TaskId) (order : List SessionId) (c : Coordinator)
    (w : c.registry.WellFormed) {s : SessionId} {e : Entry} (hs : s ∈ order)
    (he : Registry.entry? (c.shutdownFrom t order).coordinator.registry s = some e) :
    e.stopped ∨ s ∈ leftBy (c.shutdownFrom t order).task.ongoing? := by
  induction order generalizing c with
  | nil => cases hs
  | cons s' left ih =>
    have hreg := c.stop_registry s'
    unfold Coordinator.shutdownFrom at he ⊢
    generalize c.stop s' = stopped at hreg he ⊢
    obtain ⟨d | _, c'⟩ := stopped
    · rcases List.mem_cons.mp hs with rfl | hs
      · exact Or.inl (w.stopped_of_stop (hreg ▸ he))
      · exact Or.inr hs
    · have w' : c'.registry.WellFormed := hreg ▸ w.next (.stop s')
      rcases List.mem_cons.mp hs with rfl | hs
      · -- the session was marked in this step, and stays so while the others are stopped
        have hafter := shutdownFrom_registry t left c'
        have hno : ∀ call ∈ (c'.registry.stopped left).map Registry.Call.stop,
            ∀ s role, call ≠ .register s role := by
          intro call hcall
          obtain ⟨s, _, rfl⟩ := List.mem_map.mp hcall
          exact fun _ _ h => by cases h
        obtain ⟨x, hx, hev⟩ := w'.current_after hno (hafter ▸ he)
        exact Or.inl (hev.stopped (w.stopped_of_stop (hreg ▸ hx)))
      · exact ih c' w' hs he

theorem Move.registers {r : Registry} {before after : Option Task} {reply : Option Reply}
    {calls : List Registry.Call} (m : Move r before reply calls after) {s : SessionId} {role : Role}
    (h : .register s role ∈ calls) : before = none := by
  cases m with
  | enters | refused | buffers | applies => rfl
  | disposes =>
    obtain ⟨_, _, hcall⟩ := List.mem_map.mp h
    cases hcall
  | waits | obtains | goesOn => cases h
  | endpointMade | portMade | applying | drained | completes => cases List.mem_singleton.mp h
  | givesUp =>
    rcases List.mem_append.mp h with hask | hremove
    · exact absurd rfl ((NegotiationStage.asks_attempt? (Option.mem_toList.mp hask)).2.2.2 s role)
    · cases List.mem_singleton.mp hremove

namespace Episode.Occurs
variable {x : Episode} (hx : x.Occurs) (h : x.before.Consistent)
include hx

theorem stops {d : Teardown} {left : List SessionId}
    (hwas : x.was = some (.shutdown (.stopping d left))) :
    (∃ d', x.left = some (.shutdown (.stopping d' left))) ∨
      ∃ c : Coordinator, c.registry = x.before.coordinator.registry ∧
        c.mix = x.before.coordinator.mix ∧ x.result = c.shutdownFrom x.task left := by
  cases hx with
  | request => cases hwas
  | turn ht hturn =>
    cases hwas
    cases hturn
  | @reply b t task call reply ht hcall hadmits =>
    cases hwas
    have hreg := b.coordinator.countRelease_registry (.shutdown (.stopping d left)) reply
    have hmix := b.coordinator.countRelease_mix (.shutdown (.stopping d left)) reply
    obtain ⟨hreg', hmix'⟩ := release_spec d hreg hmix
    simp only [Episode.left, Coordinator.stepReply]
    generalize Coordinator.release _ d.entry d.rest = released at hreg' hmix'
    obtain ⟨d' | _, c'⟩ := released
    · exact Or.inl ⟨d', rfl⟩
    · exact Or.inr ⟨c', hreg', hmix', rfl⟩

include h

theorem prepares_of_registers {s : SessionId} {role : Role} (hm : .register s role ∈ x.calls) :
    ∃ offer, x.action = .request (.prepare s role offer) := by
  have ht := hx.taken h
  obtain ⟨q, ha, hcalls⟩ := ht.request (ht.follows.move.registers hm)
  rw [hcalls] at hm
  cases q with
  | prepare s' role' offer =>
    simp only [requestCalls] at hm
    split at hm
    · cases List.mem_singleton.mp hm
      exact ⟨offer, ha⟩
    · cases hm
  | stop | submit => cases List.mem_singleton.mp hm
  | shutdown =>
    obtain ⟨_, _, heq⟩ := List.mem_map.mp hm
    cases heq
  | requestMix | withdrawMix => cases hm

theorem not_registers (hbegins : x.action.begins = false) :
    ∀ call ∈ x.calls, ∀ s role, call ≠ .register s role := by
  rintro call hcall s role rfl
  obtain ⟨offer, ha⟩ := hx.prepares_of_registers h hcall
  rw [ha] at hbegins
  cases hbegins

theorem stopping {t : TaskId} (hbegins : x.action.begins = false) (hs : x.before.Stopping t) :
    x.after.Stopping t := by
  intro s e' he'
  obtain ⟨e, he, hev⟩ := h.wellFormed.current_after (hx.not_registers h hbegins)
    (hx.registry_after h ▸ he')
  rcases hs s e he with hst | hleft
  · exact Or.inl (hev.stopped hst)
  · rw [x.get?_after]
    by_cases hne : x.task = t
    · rw [if_pos hne]
      rw [← hne, (hx.taken h).task] at hleft
      have hwas : ∃ d left, x.was = some (.shutdown (.stopping d left)) ∧ s ∈ left := by
        unfold leftBy at hleft
        split at hleft
        · rename_i d left hwas
          exact ⟨d, left, hwas, hleft⟩
        · cases hleft
      obtain ⟨d, left, hwas, hmem⟩ := hwas
      rcases hx.stops hwas with ⟨d', hgoes⟩ | ⟨c, hreg, _, hresult⟩
      · rw [hgoes]
        exact Or.inr hmem
      · have he'' : Registry.entry? (c.shutdownFrom x.task left).coordinator.registry s = some e' :=
          hresult ▸ he'
        rw [Episode.left, hresult]
        exact shutdownFrom_stops x.task left c (hreg ▸ h.wellFormed) hmem he''
    · rw [if_neg hne]
      exact Or.inr hleft

end Episode.Occurs

/-! ## The mix -/

theorem shutdownMix_cases (c : Coordinator) (t : TaskId) :
    (c.mix.holder = none ∧ (c.shutdownMix t).coordinator.mix.published = none ∧
      ∀ stage, Coordinator.mixUseOf (c.shutdownMix t) ≠ some (.request stage)) ∨
    (c.shutdownMix t).coordinator.mix.queue = c.mix.queue ++ [t] ∧
      Coordinator.mixUseOf (c.shutdownMix t) = some (.withdrawal .waiting) := by
  unfold Coordinator.shutdownMix MixCell.withdraw
  rcases c.mix.lock_cases t with ⟨hfree, hlock⟩ | ⟨t', htaken, hlock⟩ <;> rw [hlock]
  · refine Or.inl ⟨hfree, ?_⟩
    cases hmade : c.mix.made <;>
      simp [MixCell.enterWithdrawal, Coordinator.mixUseOf, Task.mixUse?, Progress.ongoing?]
  · exact Or.inr ⟨(List.append_assoc _ _ _).symm, rfl⟩

namespace Episode.Occurs
variable {x : Episode} (hx : x.Occurs) (h : x.before.Consistent)
include hx h

theorem prepared_origin {n : Negotiation} (hleft : x.left = some (.negotiation n .prepared)) :
    x.action.begins := by
  cases hwas : x.was with
  | none =>
    cases hx with
    | turn | reply => cases hwas
    | @request b q =>
      cases serve_begins hleft with
      | prepare => rfl
  | some task =>
    cases hx.continues h hwas hleft with
    | @negotiation _ stage =>
      cases hlive : stage.isLive with
      | true =>
        have hconducts := hx.conducts h hwas hlive
        unfold Episode.left at hleft
        generalize x.result = result at hconducts hleft
        cases hconducts with
        | waits | completes => cases hleft
        | goesOn _ _ _ _ hseeks =>
          cases hleft
          cases hseeks
        | givesUp =>
          rw [Coordinator.giveUp_ongoing?] at hleft
          split at hleft <;> cases hleft
      | false =>
        cases stage with
        | releasing fault e o rest =>
          obtain ⟨c, _, _, hresult, _⟩ := hx.releases hwas
          rw [Episode.left, hresult, Coordinator.giveUp_ongoing?] at hleft
          split at hleft <;> cases hleft
        | _ => cases hlive

theorem request_origin {stage : MixRequest} (hafter : x.after.use? x.task = some (.request stage)) :
    (∃ stage', x.before.use? x.task = some (.request stage')) ∨ x.action.begins ∨
      ∃ n, x.was = some (.negotiation n .prepared) ∧ n.snapshot = none := by
  rw [x.use?_after, if_pos rfl] at hafter
  obtain ⟨task', hleft, hmix⟩ := Option.bind_eq_some_iff.mp hafter
  rw [hx.use?_before h]
  cases hwas : x.was with
  | none =>
    cases hx with
    | turn | reply => cases hwas
    | @request b q =>
      cases serve_begins hleft with
      | requestMix => exact Or.inr (Or.inl rfl)
      | @shutdown _ stage => cases stage <;> cases hmix
      | _ => cases hmix
  | some task =>
    cases hx.continues h hwas hleft with
    | @negotiation n stage₀ stage' =>
      have hlive : stage₀.isLive := by
        cases hlive : stage₀.isLive with
        | true => rfl
        | false =>
          cases stage₀ with
          | releasing fault e o rest =>
            obtain ⟨c, _, _, hresult, _⟩ := hx.releases hwas
            rw [hresult, Coordinator.giveUp_mixUse] at hafter
            cases hafter
          | _ => cases hlive
      cases hseeks : stage₀.seeksMix with
      | false =>
        rw [(hx.conducts h hwas hlive).mixUse hseeks] at hafter
        cases hafter
      | true =>
        cases stage₀ with
        | obtainingMix request => exact Or.inl ⟨request, rfl⟩
        | prepared =>
          have hconducts := hx.conducts h hwas rfl
          generalize x.result = result at hconducts hafter
          refine Or.inr (Or.inr ⟨n, rfl, ?_⟩)
          cases hconducts with
          | waits _ hsnapshot => exact hsnapshot rfl
          | goesOn stage' _ _ _ hno =>
            cases stage' with
            | obtainingMix => cases hno
            | _ => cases hafter
          | completes => cases hafter
          | givesUp => cases (Coordinator.giveUp_mixUse _ _ _ _ _).symm.trans hafter
        | _ => cases hseeks
    | @shutdown _ stage' => cases stage' <;> cases hmix
    | mixRequest => exact Or.inl ⟨_, rfl⟩
    | stop | mixWithdrawal => cases hmix

variable (hbegins : x.action.begins = false) (hu : x.before.Underway)
include hbegins

theorem underway (hu : x.before.Underway) : x.after.Underway := by
  intro t n ht
  rw [x.get?_after] at ht
  split at ht
  · rw [hx.prepared_origin h ht] at hbegins
    cases hbegins
  · exact hu t n ht

include hu

theorem requested_before {t : TaskId} {stage : MixRequest}
    (hafter : x.after.use? t = some (.request stage)) :
    ∃ stage', x.before.use? t = some (.request stage') := by
  by_cases hne : x.task = t
  · subst hne
    rcases hx.request_origin h hafter with hbefore | hnew | ⟨n, hwas, hnone⟩
    · exact hbefore
    · rw [hbegins] at hnew
      cases hnew
    · have hsome := hu x.task n ((hx.taken h).task.trans hwas)
      rw [hnone] at hsome
      cases hsome
  · rw [x.use?_after, if_neg hne] at hafter
    exact ⟨stage, hafter⟩

/-- A shutdown that goes on with the next session comes nearer to the mix. -/
theorem winds_of_shutdownFrom (hl : x.before.Locked) {c : Coordinator} {order : List SessionId}
    (hmix : c.mix = x.before.coordinator.mix) (hresult : x.result = c.shutdownFrom x.task order) :
    x.after.Winds x.task := by
  rcases shutdownFrom_left x.task order c with ⟨d, left, hleft⟩ | ⟨c', hmix', hmixed⟩
  · have hgoes : x.after.tasks.get? x.task = some (.shutdown (.stopping d left)) := by
      rw [x.get?_after, if_pos rfl, Episode.left, hresult, hleft]
      rfl
    exact .stopping hgoes
  · have huse : x.after.use? x.task = Coordinator.mixUseOf (c'.shutdownMix x.task) := by
      rw [x.use?_after, if_pos rfl, hresult, hmixed]
    have hcell : x.after.coordinator.mix = (c'.shutdownMix x.task).coordinator.mix := by
      rw [← hmixed, ← hresult]
      rfl
    have hin : ∀ t stage, x.after.use? t = some (.request stage) →
        t ∈ x.before.coordinator.mix.queue := by
      intro t stage hafter
      obtain ⟨stage', hbefore⟩ := hx.requested_before h hbegins hu hafter
      exact (hl.mem_queue t).mpr (by rw [hbefore]; rfl)
    rcases shutdownMix_cases c' x.task with ⟨hfree, hpublished, hno⟩ | ⟨hqueue, hwaits⟩
    · refine .withdrawn (fun t stage hafter => ?_) (hcell ▸ hpublished)
      rw [hmix'.trans hmix] at hfree
      have hmem := hin t stage hafter
      simp [MixCell.queue, hfree, hl.free hfree] at hmem
    · have hlast : x.after.coordinator.mix.queue = x.before.coordinator.mix.queue ++ [x.task] := by
        rw [hcell, hqueue, hmix'.trans hmix]
      exact .queued (huse.trans hwaits) hlast hin

theorem winds (hl : x.before.Locked) {t : TaskId} (hw : x.before.Winds t) : x.after.Winds t := by
  have hstill : ∀ {t stage}, x.after.use? t = some (.request stage) → _ :=
    fun hafter => hx.requested_before h hbegins hu hafter
  have hturn := hx.mix_turn h
  cases hw with
  | @stopping d left ht =>
    by_cases hne : x.task = t
    · subst hne
      have hwas := (hx.taken h).task.symm.trans ht
      rcases hx.stops hwas with ⟨d', hgoes⟩ | ⟨c, _, hmix, hresult⟩
      · have ht' : x.after.tasks.get? x.task = some (.shutdown (.stopping d' left)) := by
          rw [x.get?_after, if_pos rfl, hgoes]
        exact .stopping ht'
      · exact hx.winds_of_shutdownFrom h hbegins hu hl hmix hresult
    · have ht' : x.after.tasks.get? t = some (.shutdown (.stopping d left)) := by
        rw [x.get?_after, if_neg hne, ht]
      exact .stopping ht'
  | @queued ahead behind hwaits hqueue hahead =>
    by_cases hne : x.task = t
    · -- the shutdown has its turn, so nobody stands before it any more
      subst hne
      rw [hwaits] at hturn
      obtain ⟨hheld, hpublished⟩ := hturn.withdraws
      have hn := hl.nodup
      have hfirst : ahead = [] := by
        cases ahead with
        | nil => rfl
        | cons t' rest =>
          rw [hqueue] at hn
          rw [MixCell.queue, hheld] at hqueue
          obtain rfl := (List.cons.inj hqueue).1
          simp at hn
      refine .withdrawn (fun t' stage hafter => ?_) hpublished
      obtain ⟨stage', hbefore⟩ := hstill hafter
      have hmem := hahead t' stage' hbefore
      rw [hfirst] at hmem
      cases hmem
    · have hwaits' : x.after.use? t = some (.withdrawal .waiting) := by
        rw [x.use?_after, if_neg hne, hwaits]
      have hahead' : ∀ t' stage, x.after.use? t' = some (.request stage) → t' ∈ ahead := by
        intro t' stage hafter
        obtain ⟨stage', hbefore⟩ := hstill hafter
        exact hahead t' stage' hbefore
      obtain ⟨_, ⟨_, hq⟩ | ⟨_, _, hq⟩ | ⟨_, hnone, hq⟩⟩ := hturn.queue_cases (hl.inside x.task) hl.free
      · exact .queued hwaits' (hq.trans hqueue) hahead'
      · have hlast : x.after.coordinator.mix.queue = ahead ++ t :: (behind ++ [x.task]) := by
          rw [hq, hqueue, List.append_assoc]
          rfl
        exact .queued hwaits' hlast hahead'
      · rw [hqueue] at hq
        cases ahead with
        | nil => exact absurd (List.cons.inj hq).1.symm hne
        | cons t' rest =>
          obtain ⟨rfl, hrest⟩ := List.cons.inj hq
          refine .queued hwaits' hrest.symm fun t' stage hafter => ?_
          refine (List.mem_cons.mp (hahead' t' stage hafter)).resolve_left ?_
          rintro rfl
          cases hnone.symm.trans hafter
  | withdrawn hno hpublished =>
    have hno' : ∀ t' stage, x.after.use? t' ≠ some (.request stage) := by
      intro t' stage hafter
      obtain ⟨stage', hbefore⟩ := hstill hafter
      exact hno t' stage' hbefore
    refine .withdrawn hno' ?_
    rcases hturn.published_cases with hsame | hnone | ⟨pipeline, id, huse, _⟩
    · exact hsame.trans hpublished
    · exact hnone
    · exact absurd huse (hno _ _)

end Episode.Occurs

/-! ## The end of a run with a shutdown -/

section Idle
variable {b : Broadcast} (h : b.Consistent) (hidle : ∀ t, b.tasks.get? t = none)
include h hidle

/-- No session is left when a shutdown and all negotiations are done. -/
theorem Consistent.entries_of_stopping {t : TaskId} (hs : b.Stopping t) :
    b.coordinator.registry.entries = 0 := by
  have w := h.wellFormed
  refine Multiset.eq_zero_of_forall_notMem fun e he => ?_
  have hstopped : e.stopped := by
    rcases w.mem_entries_cases he with ⟨role, s, ht⟩ | ht
    · refine (hs s e (w.entry?_of_table ht)).resolve_right fun hleft => ?_
      rw [hidle] at hleft
      cases hleft
    · exact w.superseded_stopped _ e ht
  -- a session that was stopped is pending, so a negotiation would have to be left
  obtain ⟨t', _, _, hleads, _⟩ := h.pending_led e he (w.stopped_pending e he hstopped)
  cases (hidle t').symm.trans hleads.1

/-- Without sessions and tasks, only the published mix is not released. -/
theorem Accounts.released_of_idle (ac : b.Accounts) (hb : b.Ledger)
    (hentries : b.coordinator.registry.entries = 0) {kind : ObjectKind} {id : ObjectId}
    (hm : (kind, id) ∈ made b.log) :
    (releases b.log).count id = 1 ∨
      ∃ mix, b.coordinator.mix.published = some mix ∧ (kind, id) ∈ mix.objects := by
  have huse : ∀ t u, b.use? t ≠ some u := by
    intro t u hu
    rw [use?, hidle] at hu
    cases hu
  have hmedia : kind.isMedia → (releases b.log).count id = 1 := by
    intro hkind
    rcases ac.media_cases (mem_mediaOf_iff.mpr ⟨kind, hkind, hm⟩) with hone | hstored | hwaits
    · exact hone
    · rw [Registry.objects, hentries] at hstored
      cases Multiset.notMem_zero _ hstored
    · exact (h.not_waiting hidle hwaits).elim
  cases kind with
  | endpoint | port => exact Or.inl (hmedia rfl)
  | pipeline =>
    rcases ac.pipeline_once hb h hm with hone | ⟨_, ⟨mix, hp, rfl⟩ | ⟨t, hu | ⟨mix, _, hu⟩⟩⟩
    · exact Or.inl hone
    · exact Or.inr ⟨mix, hp, List.mem_cons_self⟩
    · exact (huse t _ hu).elim
    · exact (huse t _ hu).elim
  | mixer =>
    rcases ac.mixer_once hb h hm with hone | ⟨_, mix, hp, rfl⟩
    · exact Or.inl hone
    · exact Or.inr ⟨mix, hp, List.mem_cons_of_mem _ (List.mem_singleton_self _)⟩

end Idle

/-- A shutdown that names all sessions is possible, and begins to stop them. -/
theorem shutdown_begins {before : List Action} {order : List SessionId}
    (horder : order.isPerm (run {} before).coordinator.registry.sessions) :
    ∃ x : Episode, x.Occurs ∧ x.before = run {} before ∧
      x.after = run {} (before ++ [.request (.shutdown order)]) ∧
      x.action = .request (.shutdown order) ∧ x.after.Stopping x.task ∧
      x.result = x.before.coordinator.shutdownFrom x.task order := by
  have hsome : ((run {} before).step? (.request (.shutdown order))).isSome := by
    simp [step?, request?, horder]
  obtain ⟨b', hs⟩ := Option.isSome_iff_exists.mp hsome
  obtain ⟨x, hepisode, _, hx, hbefore, haction⟩ := step?_cases hs
  have h : x.before.Consistent := hbefore ▸ consistent before
  have hresult : x.result = x.before.coordinator.shutdownFrom x.task order := by
    cases hx with
    | turn | reply => cases haction
    | request =>
      cases haction
      rfl
  refine ⟨x, hx, hbefore, ?_, haction, ?_, hresult⟩
  · rw [run_append, step_of_episode? hepisode]
  · intro s e he
    rw [x.get?_after, if_pos rfl, Episode.left, hresult]
    refine shutdownFrom_stops x.task order _ h.wellFormed ?_ (hresult ▸ he)
    obtain ⟨e₀, he₀, _⟩ := h.wellFormed.current_after
      (hx.not_registers h (by rw [haction]; rfl)) (hx.registry_after h ▸ he)
    rw [(List.isPerm_iff.mp horder).mem_iff, ← hbefore]
    unfold Registry.sessions Table.keys
    rcases Option.or_eq_some_iff.mp he₀ with hp | ⟨_, hv⟩
    · exact List.mem_append_left _ (List.mem_map.mpr ⟨_, Table.mem_of_find hp, rfl⟩)
    · exact List.mem_append_right _ (List.mem_map.mpr ⟨_, Table.mem_of_find hv, rfl⟩)

/--
When a shutdown and everything that ran beside it are done, and nothing was asked for meanwhile, no
session is left and what was made was released once, except for a mix that is published again. If every
negotiation that requests the mix had begun when the shutdown came, no mix is published and everything
was released once.
-/
theorem shutdown_releases {before after : List Action} {order : List SessionId}
    (horder : order.isPerm (run {} before).coordinator.registry.sessions)
    (hafter : ∀ a ∈ after, a.begins = false)
    (hidle : ∀ t, (run {} (before ++ .request (.shutdown order) :: after)).tasks.get? t = none) :
    let b := run {} (before ++ .request (.shutdown order) :: after)
    b.coordinator.registry.entries = 0 ∧
    (∀ kind id, (kind, id) ∈ made b.log → (releases b.log).count id = 1 ∨
      ∃ mix, b.coordinator.mix.published = some mix ∧ (kind, id) ∈ mix.objects) ∧
    ((run {} before).Underway → b.coordinator.mix.published = none ∧
      ∀ kind id, (kind, id) ∈ made b.log → (releases b.log).count id = 1) := by
  obtain ⟨x, hx, hbefore, hrun, haction, hstops, hresult⟩ := shutdown_begins horder
  have hquiet : x.action.begins = false := by rw [haction]; rfl
  have hx₀ : x.before.Consistent := hbefore ▸ consistent before
  have hlater := @later_induction
    (fun _ b => b.Stopping x.task ∧ ((run {} before).Underway → b.Underway ∧ b.Winds x.task))
    (before ++ [.request (.shutdown order)]) after
    ⟨hrun ▸ hstops, fun hu => by
      rw [← hbefore] at hu
      have hl : x.before.Locked := hbefore ▸ locked before
      rw [← hrun]
      exact ⟨hx.underway hx₀ hquiet hu, hx.winds_of_shutdownFrom hx₀ hquiet hu hl rfl hresult⟩⟩
    (by
      rintro _ y ⟨hs, hw⟩ ⟨earlier, hearlier⟩ hy hm
      have h : y.before.Consistent := hearlier ▸ consistent earlier
      have hl : y.before.Locked := hearlier ▸ locked earlier
      have hno := hafter y.action hm
      refine ⟨hy.stopping h hno hs, fun hu => ?_⟩
      obtain ⟨hunder, hwinds⟩ := hw hu
      exact ⟨hy.underway h hno hunder, hy.winds h hno hunder hl hwinds⟩)
  have hsplit : before ++ .request (.shutdown order) :: after =
      before ++ [.request (.shutdown order)] ++ after := by simp
  rw [← run_append_run, ← hsplit] at hlater
  generalize hactions : before ++ .request (.shutdown order) :: after = actions at hlater hidle
  obtain ⟨hs, hw⟩ := hlater
  have h := consistent actions
  have hentries := h.entries_of_stopping hidle hs
  have hreleased : ∀ kind id, (kind, id) ∈ made (run {} actions).log → _ :=
    fun kind id hm => (accounts actions).released_of_idle h hidle (ledger actions) hentries hm
  refine ⟨hentries, hreleased, fun hu => ?_⟩
  have hnone : (run {} actions).coordinator.mix.published = none := by
    cases (hw hu).2 with
    | stopping ht => cases (hidle _).symm.trans ht
    | queued hwaits =>
      rw [use?, hidle] at hwaits
      cases hwaits
    | withdrawn _ hpublished => exact hpublished
  refine ⟨hnone, fun kind id hm => (hreleased kind id hm).resolve_right ?_⟩
  rintro ⟨mix, hp, _⟩
  cases hnone.symm.trans hp

/-- A shutdown comes while the first presenter waits for the engine to make the mix. -/
theorem begun_mix_released :
    let before : List Action := [.request (.prepare ⟨1⟩ .presenter "offer"), .turn ⟨0⟩]
    let after : List Action := [.reply ⟨0⟩ (.ok "pipeline"), .reply ⟨0⟩ (.ok "mixer"), .turn ⟨1⟩,
      .reply ⟨1⟩ (.ok ""), .reply ⟨1⟩ (.ok "")]
    let b := run {} (before ++ .request (.shutdown [⟨1⟩]) :: after)
    b.coordinator.registry.entries = 0 ∧ b.coordinator.mix.published = none ∧
      (releases b.log).count ⟨"pipeline"⟩ = 1 ∧ (releases b.log).count ⟨"mixer"⟩ = 1 := by
  intro before after b
  have hunder : (run {} before).Underway := by
    have htasks : (run {} before).tasks =
        ⟨[(⟨0⟩, .negotiation ⟨⟨1⟩, ⟨1⟩, .presenter, "offer", none⟩
          (.obtainingMix .creatingPipeline))]⟩ := rfl
    intro t n ht
    rw [htasks] at ht
    simp [Table.get?, Table.find] at ht
  obtain ⟨hentries, _, hwithdrawn⟩ :=
    @shutdown_releases before after [⟨1⟩] (by decide) (by decide) (fun _ => rfl)
  obtain ⟨hnone, hreleased⟩ := hwithdrawn hunder
  exact ⟨hentries, hnone, hreleased .pipeline _ (by decide), hreleased .mixer _ (by decide)⟩

/-- A negotiation that was prepared and not begun makes a mix after the shutdown, and nobody releases it. -/
theorem mix_outlives_shutdown :
    ¬ ∀ (before after : List Action) (order : List SessionId),
      order.isPerm (run {} before).coordinator.registry.sessions →
      (∀ a ∈ after, a.begins = false) → (∀ a ∈ after, ∀ fault, a.reply? ≠ some (.error fault)) →
      (∀ t, (run {} (before ++ .request (.shutdown order) :: after)).tasks.get? t = none) →
      (run {} (before ++ .request (.shutdown order) :: after)).coordinator.mix.published = none ∧
        ∀ kind id, (kind, id) ∈ made (run {} (before ++ .request (.shutdown order) :: after)).log →
          (releases (run {} (before ++ .request (.shutdown order) :: after)).log).count id = 1 := by
  intro hclaim
  have hend := hclaim [.request (.prepare ⟨1⟩ .presenter "offer")]
    [.turn ⟨0⟩, .reply ⟨0⟩ (.ok "pipeline"), .reply ⟨0⟩ (.ok "mixer")] [⟨1⟩] (by decide) (by decide)
    (by simp [Action.reply?]) (fun _ => rfl)
  cases hend.1

end Broadcast

end Rostrum
