import Rostrum.Proofs.Broadcast.DeferredStop
import Rostrum.Proofs.Broadcast.Outcome

/-!
# What a session is told after a stop

A stop silences the negotiations of its session: one that is under way finds the mark on its entry when it
comes to speak, and says nothing any more. The exception is a negotiation that had failed before. Its
entry is out of the registry while its objects are released, so the stop does not reach it, and its
rejection follows the stop.
-/

namespace Rostrum

/-- A negotiation that was given up says at most why, and only when nothing is left to release. -/
theorem Coordinator.giveUp_notices (c : Coordinator) (n : Negotiation) (fault : NegotiationFault)
    (e : Entry) (objects : List ObjectId) :
    (c.giveUp n fault e objects).notices = [] ∨ ¬ e.stopped ∧
      (c.giveUp n fault e objects).task = .done (.negotiated (.error fault)) ∧
      (c.giveUp n fault e objects).notices = [⟨n.session, .rejected n.role fault.message⟩] := by
  cases objects with
  | cons o rest => exact Or.inl rfl
  | nil =>
    by_cases hs : e.stopped
    · exact Or.inl (by simp [giveUp, hs])
    · by_cases hr : fault.isReported
      · exact Or.inr ⟨hs, rfl, by simp [giveUp, hs, reject, hr]⟩
      · exact Or.inl (by simp [giveUp, hs, reject, hr])

namespace Broadcast

/-- A negotiation of a session was prepared, under this number. -/
def Prepared (b : Broadcast) (s : SessionId) (a : Attempt) : Prop :=
  (s, a) ∈ Registry.issued (deeds b.log)

theorem Prepared.after {x : Episode} {s : SessionId} {a : Attempt} (h : x.before.Prepared s a) :
    x.after.Prepared s a := by
  rw [Prepared, x.deeds_after, Registry.issued, List.flatMap_append]
  exact List.mem_append_left _ h

/--
What was prepared for a session before it was stopped is stopped. A negotiation that was given up found
the mark, or it was being taken down already when the stop came.
-/
structure Silenced (stop : Broadcast) (s : SessionId) (b : Broadcast) : Prop where
  known : ∀ a, stop.Prepared s a → a.number ≤ b.coordinator.registry.lastAttempt
  stopped : ∀ e ∈ b.coordinator.registry.entries, stop.Prepared s e.attempt → e.stopped
  failed : ∀ t n fault e o rest, b.tasks.get? t = some (.negotiation n (.releasing fault e o rest)) →
    stop.Prepared s n.attempt → e.stopped ∨
      ∃ o' rest', stop.tasks.get? t = some (.negotiation n (.releasing fault e o' rest'))

/-- What a step of a negotiation does whose session was stopped while it was under way. -/
inductive Hushed (n : Negotiation) : StepResult → Prop where
  | waits {c : Coordinator} {request} :
      Hushed n ⟨c, [], .ongoing (.negotiation n (.obtainingMix request))⟩
  | givesUp {c : Coordinator} {fault : NegotiationFault} {e : Entry} : e.stopped →
      Hushed n (c.giveUp n fault e e.objects)

theorem Conducts.hushed {c : Coordinator} {n : Negotiation} {stage : NegotiationStage}
    {reply : Option Reply} {result : StepResult} (h : Conducts c n stage reply result)
    (hrunning : c.registry.running? n.session n.attempt = none) : Hushed n result := by
  cases h with
  | waits => exact .waits
  | goesOn _ hrun | completes _ _ hrun =>
    rw [hrunning] at hrun
    cases hrun
  | givesUp _ hflag => exact .givesUp (hflag.mpr hrunning)

namespace Episode.Occurs
variable {x : Episode} (hx : x.Occurs) (h : x.before.Consistent)
include hx h

theorem negotiation_origin {n : Negotiation} {stage : NegotiationStage}
    (hleft : x.left = some (.negotiation n stage)) :
    (∃ stage', x.was = some (.negotiation n stage')) ∨
      x.was = none ∧ stage = .prepared ∧
        ∃ role offer, x.action = .request (.prepare n.session role offer) := by
  cases hwas : x.was with
  | some task =>
    cases hx.continues h hwas hleft with
    | @negotiation _ stage' => exact Or.inl ⟨stage', rfl⟩
  | none =>
    cases hx with
    | turn | reply => cases hwas
    | request =>
      cases serve_begins hleft with
      | prepare => exact Or.inr ⟨rfl, rfl, _, _, rfl⟩

theorem not_negotiation_of_stop {s : SessionId} (hstop : .stop s ∈ x.calls) {n : Negotiation}
    {stage : NegotiationStage} (hleft : x.left = some (.negotiation n stage)) : False := by
  rcases hx.negotiation_origin h hleft with ⟨stage', hwas⟩ | ⟨hwas, _, role, offer, ha⟩
  · cases (calls_name hwas hstop).1
  · simp only [calls, hwas, ha, requestCalls] at hstop
    split at hstop
    · cases List.mem_singleton.mp hstop
    · cases hstop

theorem silences {s : SessionId} (hstop : .stop s ∈ x.calls)
    (hac : Registry.Accounted (deeds x.after.log) x.after.coordinator.registry) :
    Silenced x.before s x.after := by
  refine ⟨fun a ha => hac.issued_le s a ha.after, ?_, ?_⟩
  · intro e he ha
    -- the step does nothing but stop sessions, so whatever was entered for this one is marked
    obtain ⟨sessions, hcalls⟩ := (hx.taken h).follows.move.stops hstop
    have hs : s ∈ sessions := by
      rw [hcalls] at hstop
      obtain ⟨_, hm, heq⟩ := List.mem_map.mp hstop
      cases heq
      exact hm
    rw [hx.registry_after h, hcalls] at hac he
    exact h.wellFormed.issued_stopped_of_stops hs hac he ha.after
  · intro t n fault e o rest ht _
    rw [x.get?_after] at ht
    split at ht
    · exact (hx.not_negotiation_of_stop h hstop ht).elim
    · exact Or.inr ⟨o, rest, ht⟩

end Episode.Occurs

namespace Silenced
variable {stop : Broadcast} {s : SessionId} {x : Episode} (hsil : Silenced stop s x.before)
  (h : x.before.Consistent) (hx : x.Occurs)
include hsil h hx

/-- A negotiation that a stop found under way says nothing and does not come beyond the mix. -/
theorem hushed {n : Negotiation} {stage : NegotiationStage} (hwas : x.was = some (.negotiation n stage))
    (hlive : stage.isLive) (hprepared : stop.Prepared s n.attempt) : Hushed n x.result := by
  refine (hx.conducts h hwas hlive).hushed (h.wellFormed.running?_of_stopped fun e he ha => ?_)
  exact hsil.stopped e he (ha ▸ hprepared)

/-- Such a negotiation goes on to wait for the mix, or to release what it has made. -/
theorem left_cases {n : Negotiation} {stage stage' : NegotiationStage}
    (hwas : x.was = some (.negotiation n stage)) (hprepared : stop.Prepared s n.attempt)
    (hleft : x.left = some (.negotiation n stage')) :
    (∃ request, stage' = .obtainingMix request) ∨
      ∃ fault e o rest, stage' = .releasing fault e o rest ∧
        (e.stopped ∨ ∃ o' rest', stage = .releasing fault e o' rest') := by
  unfold Episode.left at hleft
  cases hlive : stage.isLive with
  | true =>
    have hhushed := hsil.hushed h hx hwas hlive hprepared
    generalize x.result = result at hhushed hleft
    cases hhushed with
    | waits =>
      cases hleft
      exact Or.inl ⟨_, rfl⟩
    | givesUp hstopped =>
      rw [Coordinator.giveUp_ongoing?] at hleft
      split at hleft <;> cases hleft
      exact Or.inr ⟨_, _, _, _, rfl, Or.inl hstopped⟩
  | false =>
    cases stage with
    | releasing =>
      obtain ⟨c, _, _, hresult, _⟩ := hx.releases hwas
      rw [hresult, Coordinator.giveUp_ongoing?] at hleft
      split at hleft <;> cases hleft
      exact Or.inr ⟨_, _, _, _, rfl, Or.inr ⟨_, _, rfl⟩⟩
    | _ => cases hlive

theorem step : Silenced stop s x.after := by
  have hregistry := hx.registry_after h
  have hlast := (h.wellFormed.after_changes x.calls).lastAttempt_le
  rw [← hregistry] at hlast
  refine ⟨fun a ha => Nat.le_trans (hsil.known a ha) hlast, ?_, ?_⟩
  · intro e he ha
    refine h.wellFormed.stopped_after x.calls (hsil.known _ ha) ?_ e (hregistry ▸ he) rfl
    exact fun e' he' ha' => hsil.stopped e' he' (ha' ▸ ha)
  · intro t n fault e o rest ht hprepared
    rw [x.get?_after] at ht
    -- a negotiation that comes to release in this step has found the mark on its entry
    by_cases hne : x.task = t
    · subst hne
      rw [if_pos rfl] at ht
      rcases hx.negotiation_origin h ht with ⟨stage, hwas⟩ | ⟨_, hstage, _⟩
      · rcases hsil.left_cases h hx hwas hprepared ht with ⟨_, hstage⟩ | ⟨_, _, _, _, hstage, hcases⟩
        · cases hstage
        · cases hstage
          rcases hcases with hstopped | ⟨o', rest', rfl⟩
          · exact Or.inl hstopped
          · exact hsil.failed x.task n fault e o' rest' ((hx.taken h).task.trans hwas) hprepared
      · cases hstage
    · rw [if_neg hne] at ht
      exact hsil.failed t n fault e o rest ht hprepared

theorem notices {n : Negotiation} {stage : NegotiationStage} (hwas : x.was = some (.negotiation n stage))
    (hs : n.session = s) (hprepared : stop.Prepared s n.attempt) :
    x.result.notices = [] ∨ ∃ fault e o rest,
      stop.tasks.get? x.task = some (.negotiation n (.releasing fault e o rest)) ∧ ¬ e.stopped ∧
      x.result.task = .done (.negotiated (.error fault)) ∧
      x.result.notices = [⟨s, .rejected n.role fault.message⟩] := by
  cases hlive : stage.isLive with
  | true =>
    have hhushed := hsil.hushed h hx hwas hlive hprepared
    generalize x.result = result at hhushed
    cases hhushed with
    | waits => exact Or.inl rfl
    | @givesUp c fault e hstopped =>
      exact Or.inl ((c.giveUp_notices n fault e e.objects).resolve_right fun hsaid => hsaid.1 hstopped)
  | false =>
    cases stage with
    | releasing fault e o rest =>
      obtain ⟨c, _, _, hresult, _⟩ := hx.releases hwas
      rw [hresult]
      -- it speaks only if the entry it took out had no mark, and then it was out before the stop
      rcases c.giveUp_notices n fault e rest with hquiet | ⟨hno, hdone, hsaid⟩
      · exact Or.inl hquiet
      · obtain ⟨o', rest', hfound⟩ := (hsil.failed x.task n fault e o rest
          ((hx.taken h).task.trans hwas) hprepared).resolve_left hno
        exact Or.inr ⟨fault, e, o', rest', hfound, hno, hdone, hs ▸ hsaid⟩
    | _ => cases hlive

end Silenced

section Runs
variable {actions : List Action} {x : Episode} (hx : x ∈ history {} actions) {s : SessionId}
  (hstop : .stop s ∈ x.calls)
include hx hstop

theorem silenced_run (later : List Action) : Silenced x.before s (x.after.run later) := by
  obtain ⟨hoccurs, earlier, _, _, hbefore, hafter⟩ := occurs_of_mem hx
  -- on what follows the stop; the broadcast in which it came stays fixed
  have hstart := hoccurs.silences (hbefore ▸ consistent earlier) hstop (hafter ▸ accounted _)
  generalize x.before = stop at hstart
  rw [hafter] at hstart ⊢
  exact later_induction _ (P := fun _ b => Silenced stop s b) hstart
    fun _ y hsil ⟨before, hy⟩ hoccurs _ => hsil.step (hy ▸ consistent before) hoccurs

/--
After a stop, a negotiation of the session that was prepared before has nothing to say any more, in
whatever order the tasks take their steps and whichever calls fail. In particular it does not accept. The
one exception is a negotiation that had already failed and was releasing its objects when the stop came:
it still says, at its end, why it failed.
-/
theorem silent_after_stop (later : List Action) {y : Episode} (hy : y ∈ x.after.history later)
    {n : Negotiation} {stage : NegotiationStage} (hwas : y.was = some (.negotiation n stage))
    (hs : n.session = s) (hprepared : x.before.Prepared s n.attempt) :
    y.result.notices = [] ∨ ∃ fault e o rest,
      x.before.tasks.get? y.task = some (.negotiation n (.releasing fault e o rest)) ∧ ¬ e.stopped ∧
      y.result.task = .done (.negotiated (.error fault)) ∧
      y.result.notices = [⟨s, .rejected n.role fault.message⟩] := by
  obtain ⟨_, _, _, _, _, hafter⟩ := occurs_of_mem hx
  obtain ⟨before, _, _, hepisode⟩ := mem_history hy
  obtain ⟨_, hoccurs, hbefore, _⟩ := step?_of_episode? hepisode
  have h : y.before.Consistent := by
    rw [hbefore, hafter, ← run_append_run]
    exact consistent _
  have hsil := silenced_run hx hstop before
  rw [← hbefore] at hsil
  exact hsil.notices h hoccurs hwas hs hprepared

end Runs

/-- A presenter's negotiation comes to connect the endpoint with its port. -/
def comesToConnect : List Action :=
  [.request (.prepare ⟨1⟩ .presenter "offer"), .turn ⟨0⟩, .reply ⟨0⟩ (.ok "pipeline"),
    .reply ⟨0⟩ (.ok "mixer"), .reply ⟨0⟩ (.ok "endpoint"), .reply ⟨0⟩ (.ok "port")]

/-- The client stops while the engine connects, and the engine fails: nothing is said of the failure. -/
theorem silent_after_failure :
    ∃ x ∈ history {} (comesToConnect ++ [.request (.stop ⟨1⟩ false)]), .stop ⟨1⟩ ∈ x.calls ∧
      ∃ y ∈ x.after.history [.reply ⟨0⟩ (.error (.unreachable "gone")), .reply ⟨0⟩ (.ok ""),
          .reply ⟨0⟩ (.ok "")],
        y.result.task.gaveUp ∧ y.left = none ∧ y.result.notices = [] := by
  have hx := List.mem_of_getElem? (l := history {} (comesToConnect ++ [.request (.stop ⟨1⟩ false)]))
    (i := 6) rfl
  refine ⟨_, hx, List.mem_singleton_self _, _, List.mem_of_getElem? (i := 2) rfl, rfl, rfl, ?_⟩
  refine (silent_after_stop hx (s := ⟨1⟩) (n := ⟨⟨1⟩, ⟨1⟩, .presenter, "offer", none⟩)
    (List.mem_singleton_self _) [.reply ⟨0⟩ (.error (.unreachable "gone")), .reply ⟨0⟩ (.ok ""),
      .reply ⟨0⟩ (.ok "")] (List.mem_of_getElem? (i := 2) rfl) rfl rfl
    (List.mem_of_getElem? (i := 0) rfl)).resolve_right ?_
  rintro ⟨fault, e, o, rest, hfound, _⟩
  cases hfound

/-- The engine fails to connect before the client stops: the rejection comes after the stop. -/
theorem rejected_after_stop :
    ¬ ∀ (actions later : List Action), ∀ x ∈ history {} actions, ∀ s, .stop s ∈ x.calls →
      ∀ y ∈ x.after.history later, ∀ n stage, y.was = some (.negotiation n stage) → n.session = s →
        x.before.Prepared s n.attempt → y.result.notices = [] := by
  intro hclaim
  have hsaid := hclaim
    (comesToConnect ++ [.reply ⟨0⟩ (.error (.unreachable "gone")), .request (.stop ⟨1⟩ false)])
    [.reply ⟨0⟩ (.ok ""), .reply ⟨0⟩ (.ok "")] _ (List.mem_of_getElem? (i := 7) rfl) ⟨1⟩
    (List.mem_singleton_self _) _ (List.mem_of_getElem? (i := 1) rfl) _ _ rfl rfl
    (List.mem_of_getElem? (i := 0) rfl)
  cases hsaid

end Broadcast

end Rostrum
