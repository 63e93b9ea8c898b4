import Mathlib.Algebra.Ring.Int.Defs
import Rostrum.Proofs.Broadcast.Conduct

/-!
# How a request for a role ends

A negotiation is accepted, rejected or silenced by a stop. What its session is told, what is counted and
what is taken out of the registry are read off the steps of its task, over the whole history of a run,
and they agree with one another and with what the negotiation returns.
-/

namespace Rostrum

namespace Coordinator
variable {c c' : Coordinator}

/-- How many negotiations were counted for a role with a verdict. -/
def counted (c : Coordinator) (role : Role) (verdict : Verdict) : Nat :=
  c.metrics.negotiated (labels role verdict)

theorem labels_key_eq_iff {role role' : Role} {verdict verdict' : Verdict} :
    (labels role verdict).key = (labels role' verdict').key ↔ role = role' ∧ verdict = verdict' := by
  cases role <;> cases role' <;> cases verdict <;> cases verdict' <;> decide

theorem counted_congr (h : c'.metrics.negotiations = c.metrics.negotiations) :
    c'.counted = c.counted := by
  funext role verdict
  simp only [counted, Metrics.negotiated, Metrics.counted, h]

theorem counted_of_count {role : Role} {verdict : Verdict}
    (h : c'.metrics.negotiations = (c.metrics.countNegotiation (labels role verdict)).negotiations)
    (role' : Role) (verdict' : Verdict) :
    c'.counted role' verdict' =
      c.counted role' verdict' + if role' = role ∧ verdict' = verdict then 1 else 0 := by
  simp only [counted, Metrics.negotiated, Metrics.counted, h, Metrics.countNegotiation, Table.get?_put,
    labels_key_eq_iff]
  by_cases heq : role = role' ∧ verdict = verdict'
  · obtain ⟨rfl, rfl⟩ := heq
    simp
  · have hne : ¬ (role' = role ∧ verdict' = verdict) := by
      rintro ⟨hr, hv⟩
      exact heq ⟨hr.symm, hv.symm⟩
    simp [heq, hne]

/-- A negotiation that was given up goes on releasing, or ends silently, or with a rejection. -/
theorem giveUp_cases (c : Coordinator) (n : Negotiation) {fault : NegotiationFault} {e : Entry}
    (hstopped : fault = .stopped → e.stopped) (objects : List ObjectId) :
    let result := c.giveUp n fault e objects
    (∃ o rest, result.task = .ongoing (.negotiation n (.releasing fault e o rest)) ∧
      result.notices = [] ∧ result.coordinator.metrics.negotiations = c.metrics.negotiations) ∨
    (e.stopped ∧ result.task = .done (.negotiated (.error fault)) ∧ result.notices = [] ∧
      result.coordinator.metrics.negotiations = c.metrics.negotiations) ∨
    (¬ e.stopped ∧ result.task = .done (.negotiated (.error fault)) ∧
      result.notices = [⟨n.session, .rejected n.role fault.message⟩] ∧
      result.coordinator.metrics.negotiations =
        (c.metrics.countNegotiation (labels n.role .rejected)).negotiations) := by
  have hsettled : (c.settle e).metrics.negotiations = c.metrics.negotiations := by
    unfold settle Metrics.addActive
    cases e.phase <;> cases e.role <;> rfl
  cases objects with
  | cons o rest => exact Or.inl ⟨o, rest, rfl, rfl, rfl⟩
  | nil =>
    by_cases hs : e.stopped
    · refine Or.inr (Or.inl ⟨hs, ?_⟩)
      simp [giveUp, hs, hsettled]
    · have hreported : fault.isReported := by
        simpa [NegotiationFault.isReported] using fun hf => hs (hstopped hf)
      refine Or.inr (Or.inr ⟨hs, ?_⟩)
      simp [giveUp, hs, reject, hreported, Metrics.countNegotiation, Metrics.counted, hsettled]

end Coordinator

namespace Broadcast

/-! ## What the steps of a task add up to -/

def stepsOf (past : List Episode) (t : TaskId) : List Episode := past.filter fun x => x.task = t

/-- What clients are told in some steps. -/
def said (steps : List Episode) : List Notice := steps.flatMap fun x => x.result.notices

/-- The entries that some steps take out of the registry. -/
def takenOut (steps : List Episode) : List Entry :=
  steps.flatMap fun x => Registry.handedOut (x.before.coordinator.registry.log x.calls)

/-- By how much the count of a role and a verdict rises in some steps. -/
def rise (steps : List Episode) (role : Role) (verdict : Verdict) : Int :=
  (steps.map fun x => (x.after.coordinator.counted role verdict : Int) -
    x.before.coordinator.counted role verdict).sum

theorem stepsOf_append (past : List Episode) (x : Episode) (t : TaskId) :
    stepsOf (past ++ [x]) t = if x.task = t then stepsOf past t ++ [x] else stepsOf past t := by
  unfold stepsOf
  rw [List.filter_append]
  split <;> simp_all

section Steps
variable (steps : List Episode) (x : Episode)

theorem said_append : said (steps ++ [x]) = said steps ++ x.result.notices := by
  simp [said]

theorem takenOut_append : takenOut (steps ++ [x]) =
    takenOut steps ++ Registry.handedOut (x.before.coordinator.registry.log x.calls) := by
  simp [takenOut]

theorem rise_append (role : Role) (verdict : Verdict) : rise (steps ++ [x]) role verdict =
    rise steps role verdict + ((x.result.coordinator.counted role verdict : Int) -
      x.before.coordinator.counted role verdict) := by
  simp only [rise, List.map_append, List.sum_append, List.map_singleton, List.sum_singleton]
  rfl

variable {steps x}

theorem rise_of_same (h : x.result.coordinator.metrics.negotiations =
      x.before.coordinator.metrics.negotiations) (hrise : ∀ role verdict, rise steps role verdict = 0)
    (role : Role) (verdict : Verdict) : rise (steps ++ [x]) role verdict = 0 := by
  rw [rise_append, hrise, Coordinator.counted_congr h]
  omega

theorem rise_of_count {role : Role} {verdict : Verdict}
    (h : x.result.coordinator.metrics.negotiations =
      (x.before.coordinator.metrics.countNegotiation (Coordinator.labels role verdict)).negotiations)
    (hrise : ∀ role verdict, rise steps role verdict = 0) (role' : Role) (verdict' : Verdict) :
    rise (steps ++ [x]) role' verdict' = if role' = role ∧ verdict' = verdict then 1 else 0 := by
  rw [rise_append, hrise, Coordinator.counted_of_count h]
  split <;> omega

end Steps

/-- The client had its answer when the engine failed to search for candidates. -/
def FailsGathering (steps : List Episode) (n : Negotiation) (answer : String)
    (fault : NegotiationFault) : Prop :=
  ∃ x ∈ steps, ∃ endpoint f, x.was = some (.negotiation n (.gathering endpoint answer)) ∧
    x.action.reply? = some (.error f) ∧ fault = .engine f

/-- The steps of a negotiation that was not given up. -/
structure GoesOn (steps : List Episode) (n : Negotiation) (stage : NegotiationStage) : Prop where
  told : said steps = stage.announces n
  removed : takenOut steps = []
  uncounted : ∀ role verdict, rise steps role verdict = 0

/-- The steps of a negotiation that was given up and releases what its entry names. -/
structure GivenUp (steps : List Episode) (n : Negotiation) (fault : NegotiationFault)
    (e : Entry) : Prop where
  removed : takenOut steps = [e]
  attempt : e.attempt = n.attempt
  stopped : fault = .stopped → e.stopped
  told : said steps = [] ∨ ∃ answer, said steps = [⟨n.session, .accepted n.role answer⟩] ∧
    (fault ≠ .stopped → FailsGathering steps n answer fault)
  uncounted : ∀ role verdict, rise steps role verdict = 0

/-- The ways in which a negotiation ends, by its steps and the registry they lead to. -/
inductive Outcome (steps : List Episode) (r : Registry) (n : Negotiation) :
    Except NegotiationFault String → Prop where
  /-- The session takes part, and was told its answer and nothing else. -/
  | accepted {answer : String} :
      said steps = [⟨n.session, .accepted n.role answer⟩] → takenOut steps = [] →
      (∃ e, r.attempt? n.session n.attempt = some e ∧ e.phase = .ready) →
      (∀ role verdict,
        rise steps role verdict = if role = n.role ∧ verdict = .accepted then 1 else 0) →
      Outcome steps r n (.ok answer)
  /-- The session was told why it does not take part, after an answer only if the search failed. -/
  | rejected {fault : NegotiationFault} {e : Entry} {earlier : List Notice} :
      takenOut steps = [e] → e.attempt = n.attempt → ¬ e.stopped → fault ≠ .stopped →
      said steps = earlier ++ [⟨n.session, .rejected n.role fault.message⟩] →
      (earlier = [] ∨ ∃ answer, earlier = [⟨n.session, .accepted n.role answer⟩] ∧
        FailsGathering steps n answer fault) →
      (∀ role verdict,
        rise steps role verdict = if role = n.role ∧ verdict = .rejected then 1 else 0) →
      Outcome steps r n (.error fault)
  /-- The session was stopped and is told nothing more. -/
  | silenced {fault : NegotiationFault} {e : Entry} :
      takenOut steps = [e] → e.attempt = n.attempt → e.stopped →
      (said steps = [] ∨ ∃ answer, said steps = [⟨n.session, .accepted n.role answer⟩]) →
      (∀ role verdict, rise steps role verdict = 0) →
      Outcome steps r n (.error fault)

/-- Where a step of a negotiation leads. -/
inductive Proceeds (steps : List Episode) (r : Registry) (n : Negotiation) :
    Progress Task Ending → Prop where
  | goesOn {stage : NegotiationStage} : stage.isLive → GoesOn steps n stage →
      Proceeds steps r n (.ongoing (.negotiation n stage))
  | givenUp {fault e o rest} : GivenUp steps n fault e →
      Proceeds steps r n (.ongoing (.negotiation n (.releasing fault e o rest)))
  | ends {result} : Outcome steps r n result → Proceeds steps r n (.done (.negotiated result))

section Negotiations
variable {steps : List Episode} {x : Episode} {n : Negotiation} {stage : NegotiationStage}
  {fault : NegotiationFault} {e : Entry}

theorem FailsGathering.more {answer : String} (h : FailsGathering steps n answer fault) :
    FailsGathering (steps ++ [x]) n answer fault := by
  obtain ⟨y, hy, hfails⟩ := h
  exact ⟨y, List.mem_append_left _ hy, hfails⟩

/-- A step in which a negotiation that was given up releases something or ends. -/
theorem proceeds_of_giveUp {c : Coordinator} {objects : List ObjectId}
    (hresult : x.result = c.giveUp n fault e objects)
    (hcounts : c.metrics.negotiations = x.before.coordinator.metrics.negotiations)
    (htaken : takenOut (steps ++ [x]) = [e]) (ha : e.attempt = n.attempt)
    (hstopped : fault = .stopped → e.stopped)
    (hsaid : said steps = [] ∨ ∃ answer, said steps = [⟨n.session, .accepted n.role answer⟩] ∧
      (fault ≠ .stopped → FailsGathering (steps ++ [x]) n answer fault))
    (hrise : ∀ role verdict, rise steps role verdict = 0) :
    Proceeds (steps ++ [x]) x.after.coordinator.registry n x.result.task := by
  have hcases := c.giveUp_cases n hstopped objects
  rw [← hresult] at hcases
  obtain ⟨o, rest, htask, hnotices, hsame⟩ | ⟨hs, htask, hnotices, hsame⟩ |
    ⟨hs, htask, hnotices, hcount⟩ := hcases
  · rw [htask]
    refine .givenUp ⟨htaken, ha, hstopped, ?_, rise_of_same (hsame.trans hcounts) hrise⟩
    rwa [said_append, hnotices, List.append_nil]
  · rw [htask]
    refine .ends (.silenced htaken ha hs ?_ (rise_of_same (hsame.trans hcounts) hrise))
    rw [said_append, hnotices, List.append_nil]
    exact hsaid.imp_right fun ⟨answer, hanswer, _⟩ => ⟨answer, hanswer⟩
  · have hne : fault ≠ .stopped := fun hf => hs (hstopped hf)
    have htold : said (steps ++ [x]) =
        said steps ++ [⟨n.session, .rejected n.role fault.message⟩] := by
      rw [said_append, hnotices]
    rw [htask]
    refine .ends (.rejected htaken ha hs hne htold ?_ ?_)
    · exact hsaid.imp_right fun ⟨answer, hanswer, hfails⟩ => ⟨answer, hanswer, hfails hne⟩
    · refine rise_of_count (hcount.trans ?_) hrise
      simp only [Metrics.countNegotiation, Metrics.counted, hcounts]

theorem Episode.takenOut_of_live (hwas : x.was = some (.negotiation n stage)) (hlive : stage.isLive) :
    Registry.handedOut (x.before.coordinator.registry.log x.calls) =
      if x.result.task.gaveUp then
        (Registry.Deed.mk (x.before.coordinator.registry.after
          (stage.asks n x.action.reply?).toList) (.remove n.session n.attempt)).handedOut
      else [] := by
  rw [Episode.calls_of_live hwas hlive, negotiationCalls]
  split
  · exact stage.handedOut_asks _ _ _ _
  · rw [List.append_nil]
    cases hask : stage.asks n x.action.reply? with
    | none => rfl
    | some call =>
      exact (Registry.handedOut_log_singleton _ _).trans
        (Registry.Deed.handedOut_eq_nil (NegotiationStage.not_takes_of_asks hask))

theorem GoesOn.step (hgoes : GoesOn steps n stage) (hx : x.Occurs) (h : x.before.Consistent)
    (hwas : x.was = some (.negotiation n stage)) (hlive : stage.isLive) :
    Proceeds (steps ++ [x]) x.after.coordinator.registry n x.result.task := by
  have htaken := Episode.takenOut_of_live hwas hlive
  have hconducts := hx.conducts h hwas hlive
  obtain ⟨b, action, t, was, result⟩ := x
  have htold : ∀ {notices}, stage.gathers = false → result.notices = notices →
      said (steps ++ [⟨b, action, t, was, result⟩]) = notices := by
    rintro notices hquiet rfl
    rw [said_append, hgoes.told, NegotiationStage.announces_of_quiet hquiet, List.nil_append]
  cases hconducts with
  | waits hseeks _ hcounts =>
    refine .goesOn rfl ⟨htold (NegotiationStage.gathers_of_seeksMix hseeks) rfl, ?_, ?_⟩
    · rw [takenOut_append, hgoes.removed, htaken]
      rfl
    · exact rise_of_same hcounts hgoes.uncounted
  | goesOn stage' _ hquiet hlive' _ hcounts =>
    refine .goesOn hlive' ⟨htold hquiet rfl, ?_, rise_of_same hcounts hgoes.uncounted⟩
    rw [takenOut_append, hgoes.removed, htaken]
    simp [Progress.gaveUp, hlive']
  | @completes c' endpoint answer text hstage _ _ hready hcount =>
    subst hstage
    refine .ends (.accepted ?_ ?_ hready (rise_of_count hcount hgoes.uncounted))
    · rw [said_append, hgoes.told]
      rfl
    · rw [takenOut_append, hgoes.removed, htaken]
      rfl
  | @givesUp c' fault e he hflag hstopped hgathers hcounts =>
    have ha := ((h.wellFormed.after _).mem_of_attempt? he).2
    refine proceeds_of_giveUp rfl hcounts ?_ ha hstopped ?_ hgoes.uncounted
    · rw [takenOut_append, hgoes.removed, htaken]
      refine (if_pos (c'.giveUp_gaveUp n fault e e.objects)).trans ?_
      rw [Registry.Deed.handedOut_remove, Registry.attempt?_remove he]
      rfl
    · rw [hgoes.told]
      cases hquiet : stage.gathers with
      | false => exact Or.inl (NegotiationStage.announces_of_quiet hquiet)
      | true =>
        cases stage with
        | gathering endpoint answer =>
          refine Or.inr ⟨answer, rfl, fun hne => ?_⟩
          obtain ⟨f, hreply, hfault⟩ := hgathers rfl hne
          exact ⟨_, List.mem_append_right _ (List.mem_singleton_self _), endpoint, f, hwas, hreply, hfault⟩
        | _ => cases hquiet

theorem GivenUp.step {o : ObjectId} {rest : List ObjectId} (hgiven : GivenUp steps n fault e)
    (hx : x.Occurs) (hwas : x.was = some (.negotiation n (.releasing fault e o rest))) :
    Proceeds (steps ++ [x]) x.after.coordinator.registry n x.result.task := by
  obtain ⟨c, reply, _, hresult, hcounts, _⟩ := hx.releases hwas
  refine proceeds_of_giveUp hresult hcounts ?_ hgiven.attempt hgiven.stopped ?_ hgiven.uncounted
  · have hcalls : x.calls = [] := by
      unfold Episode.calls
      rw [hwas]
      rfl
    rw [takenOut_append, hgiven.removed, hcalls]
    rfl
  · exact hgiven.told.imp_right fun ⟨answer, hanswer, hfails⟩ =>
      ⟨answer, hanswer, fun hne => (hfails hne).more⟩

/-- A request for a role leaves a negotiation behind that has said nothing, or it is refused. -/
theorem Episode.Occurs.prepares (hx : x.Occurs) {s : SessionId} {role : Role} {offer : String}
    (ha : x.action = .request (.prepare s role offer)) :
    (∃ a snapshot, x.result.task = .ongoing (.negotiation ⟨s, a, role, offer, snapshot⟩ .prepared) ∧
      GoesOn [x] ⟨s, a, role, offer, snapshot⟩ .prepared) ∨
    ∃ fault, x.result.task = .done (.negotiated (.error fault)) ∧
      x.result.notices = [⟨s, .rejected role fault.message⟩] ∧
      x.after.coordinator.registry = x.before.coordinator.registry ∧
      ∀ role' verdict,
        rise [x] role' verdict = if role' = role ∧ verdict = .rejected then 1 else 0 := by
  cases hx with
  | turn | reply => cases ha
  | @request b q hperm =>
    cases ha
    rcases prepare_spec b.coordinator s role offer with ⟨a, snapshot, c', hr, hmetrics⟩ | ⟨fault, hr⟩
    · have hresult : serve b.coordinator ⟨b.nextTask⟩ (.prepare s role offer) =
          ⟨c', [], .ongoing (.negotiation ⟨s, a, role, offer, snapshot⟩ .prepared)⟩ := by
        simp only [serve, hr]
      rw [hresult]
      refine Or.inl ⟨a, snapshot, rfl, rfl, ?_, ?_⟩
      · simp only [takenOut, List.flatMap_cons, List.flatMap_nil, List.append_nil, calls, requestCalls]
        split
        · exact (Registry.handedOut_log_singleton _ _).trans
            (Registry.Deed.handedOut_eq_nil (by simp [Registry.Call.takes]))
        · rfl
      · exact @rise_of_same [] _ (congrArg Metrics.negotiations hmetrics) fun _ _ => rfl
    · have hresult : serve b.coordinator ⟨b.nextTask⟩ (.prepare s role offer) =
          ⟨{ b.coordinator with metrics :=
              b.coordinator.metrics.countNegotiation (Coordinator.labels role .rejected) },
            [⟨s, .rejected role fault.message⟩], .done (.negotiated (.error fault))⟩ := by
        simp only [serve, hr]
      rw [hresult]
      exact Or.inr ⟨fault, rfl, rfl, rfl, @rise_of_count [] _ _ _ rfl fun _ _ => rfl⟩

end Negotiations

/-! ## The steps of a run -/

/-- What the history of a run says of its negotiations. -/
structure Chronicle (past : List Episode) (b : Broadcast) : Prop where
  unused : ∀ t : TaskId, b.nextTask ≤ t.number → stepsOf past t = []
  goesOn : ∀ t n stage, b.Leads t n stage → GoesOn (stepsOf past t) n stage
  givenUp : ∀ t n fault e o rest,
    b.tasks.get? t = some (.negotiation n (.releasing fault e o rest)) →
    GivenUp (stepsOf past t) n fault e
  ended : ∀ x ∈ past, ∀ n stage ending, x.was = some (.negotiation n stage) →
    x.result.task = .done ending → x.task.number < b.nextTask ∧ b.tasks.get? x.task = none ∧
      ∃ r, ending = .negotiated r ∧
        Outcome (stepsOf past x.task) x.after.coordinator.registry n r

theorem chronicle_empty : Chronicle [] {} where
  unused _ _ := rfl
  goesOn _ _ _ h := by cases h.1
  givenUp _ _ _ _ _ _ h := by cases h
  ended x hx := by cases hx

namespace Chronicle
variable {past : List Episode} {x : Episode} (hp : Chronicle past x.before)
  (h : x.before.Consistent) (hx : x.Occurs)
include hp h hx

theorem proceeds {n : Negotiation} {stage : NegotiationStage}
    (hwas : x.was = some (.negotiation n stage)) :
    Proceeds (stepsOf past x.task ++ [x]) x.after.coordinator.registry n x.result.task := by
  have htask := (hx.taken h).task.trans hwas
  cases hlive : stage.isLive with
  | true => exact (hp.goesOn x.task n stage ⟨htask, hlive⟩).step hx h hwas hlive
  | false =>
    cases stage with
    | releasing fault e o rest => exact (hp.givenUp x.task n fault e o rest htask).step hx hwas
    | _ => cases hlive

theorem proceeds_of_left {n : Negotiation} {stage : NegotiationStage}
    (hleft : x.left = some (.negotiation n stage)) :
    Proceeds (stepsOf past x.task ++ [x]) x.after.coordinator.registry n
      (.ongoing (.negotiation n stage)) := by
  have htask : x.result.task = .ongoing (.negotiation n stage) := by
    unfold Episode.left at hleft
    cases hr : x.result.task with
    | ongoing task =>
      rw [hr] at hleft
      exact congrArg Progress.ongoing (Option.some.inj hleft)
    | done =>
      rw [hr] at hleft
      cases hleft
  cases hwas : x.was with
  | some task =>
    cases hx.continues h hwas hleft with
    | negotiation => exact htask ▸ hp.proceeds h hx hwas
  | none =>
    have hfresh : stepsOf past x.task = [] := hp.unused _ (by rw [hx.begins hwas])
    rw [hfresh]
    have hreq := hx
    cases hreq with
    | turn | reply => cases hwas
    | @request b q hperm =>
      cases serve_begins hleft with
      | prepare =>
        rcases hx.prepares rfl with ⟨a, snapshot, hnew, hgoes⟩ | ⟨fault, hdone, _⟩
        · rw [hnew] at htask
          cases htask
          exact .goesOn rfl hgoes
        · rw [hdone] at htask
          cases htask

theorem step : Chronicle (past ++ [x]) x.after := by
  have htask := (hx.taken h).task
  have hnext : x.after.nextTask = max x.before.nextTask (x.task.number + 1) := rfl
  refine ⟨?_, ?_, ?_, ?_⟩
  · intro t hle
    have hne : x.task ≠ t := by
      rintro rfl
      omega
    rw [stepsOf_append, if_neg hne]
    exact hp.unused t (by omega)
  · intro t n stage hleads
    rw [stepsOf_append]
    by_cases hne : x.task = t
    · subst hne
      obtain ⟨hleft, hlive⟩ := leads_take_self.mp hleads
      rw [if_pos rfl]
      cases hp.proceeds_of_left h hx hleft with
      | goesOn _ hgoes => exact hgoes
      | givenUp => cases hlive
    · rw [if_neg hne]
      exact hp.goesOn t n stage ((leads_take_of_ne hne).mp hleads)
  · intro t n fault e o rest ht
    rw [x.get?_after] at ht
    rw [stepsOf_append]
    by_cases hne : x.task = t
    · subst hne
      rw [if_pos rfl] at ht ⊢
      cases hp.proceeds_of_left h hx ht with
      | goesOn hlive => cases hlive
      | givenUp hgiven => exact hgiven
    · rw [if_neg hne] at ht ⊢
      exact hp.givenUp t n fault e o rest ht
  · intro y hy n stage ending hwas hdone
    rcases List.mem_append.mp hy with hy | hy
    · obtain ⟨hlt, hnone, hr⟩ := hp.ended y hy n stage ending hwas hdone
      have hne : x.task ≠ y.task := hx.ne_of_ended h hnone hlt
      rw [stepsOf_append, if_neg hne, x.get?_after, if_neg hne]
      exact ⟨by omega, hnone, hr⟩
    · obtain rfl := List.mem_singleton.mp hy
      have hgone : y.after.tasks.get? y.task = none := by
        rw [y.get?_after, if_pos rfl, Episode.left, hdone]
        rfl
      refine ⟨by omega, hgone, ?_⟩
      rw [stepsOf_append, if_pos rfl]
      have hends := hp.proceeds h hx hwas
      rw [hdone] at hends
      cases hends with
      | ends houtcome => exact ⟨_, rfl, houtcome⟩

end Chronicle

theorem chronicle (actions : List Action) : Chronicle (history {} actions) (run {} actions) :=
  history_induction chronicle_empty (fun _ _ hp h hx => hp.step h hx) actions

/--
A request for a role is refused at once, with one rejection and nothing else changed, or it leaves a
negotiation behind. When the negotiation ends, all its steps together have done one of three things. It
was accepted: its session was told the answer once, is ready, and was counted as accepted. It was
rejected: its entry was taken out and had not been stopped, its session was told why in the last message,
after an answer only if the engine failed to search for candidates, and was counted as rejected. Or the
entry that was taken out had been stopped, and there was neither a rejection nor a count.
-/
theorem one_outcome (actions : List Action) :
    (∀ x ∈ history {} actions, ∀ s role offer ending, x.action = .request (.prepare s role offer) →
      x.result.task = .done ending → ∃ fault, ending = .negotiated (.error fault) ∧
        x.result.notices = [⟨s, .rejected role fault.message⟩] ∧
        x.after.coordinator.registry = x.before.coordinator.registry ∧
        ∀ role' verdict,
          rise [x] role' verdict = if role' = role ∧ verdict = .rejected then 1 else 0) ∧
    ∀ x ∈ history {} actions, ∀ n stage ending, x.was = some (.negotiation n stage) →
      x.result.task = .done ending → ∃ r, ending = .negotiated r ∧
        Outcome (stepsOf (history {} actions) x.task) x.after.coordinator.registry n r := by
  refine ⟨fun x hx s role offer ending ha hdone => ?_, fun x hx n stage ending hwas hdone => ?_⟩
  · obtain ⟨hoccurs, _⟩ := occurs_of_mem hx
    rcases hoccurs.prepares ha with ⟨a, snapshot, hnew, _⟩ | ⟨fault, htask, hrest⟩
    · rw [hdone] at hnew
      cases hnew
    · rw [hdone] at htask
      cases htask
      exact ⟨fault, rfl, hrest⟩
  · exact ((chronicle actions).ended x hx n stage ending hwas hdone).2.2

end Broadcast

end Rostrum
