import Mathlib
import Rostrum.Proofs.Broadcast.Messages
import Rostrum.Proofs.Broadcast.Path
import Rostrum.Proofs.Broadcast.Readiness
import Rostrum.Proofs.Broadcast.Undisturbed

/-!
# The role of a session

While nothing goes wrong, the role that a session holds is the one that it asked for first since it last
asked to be stopped. This is so after every step, however far the negotiations of the session have come
and whatever others do meanwhile. When all tasks are done, the session takes part in that role and has
left nothing behind.
-/

namespace Rostrum

namespace Registry
variable {r : Registry} {s : SessionId}

theorem isCurrent_iff {a : Attempt} :
    r.isCurrent s a ↔ ∃ e, r.entry? s = some e ∧ e.attempt = a := by
  unfold isCurrent
  cases r.entry? s <;> simp

/-- A session takes part in a role with all it needs, or it is not entered; nothing is superseded. -/
def Settled (r : Registry) (s : SessionId) (role : Option Role) : Prop :=
  (∀ a, r.superseded.get? a = none) ∧
  match role with
  | none => ∀ role, (r.table role).get? s = none
  | some role => ∃ e, e.phase = .ready ∧ e.endpoint.isSome ∧ e.port.isSome ∧
      ∀ role', (r.table role').get? s = if role' = role then some e else none

theorem activeRole?_eq_some_iff {role : Role} :
    r.activeRole? s = some role ↔ ∃ e, r.entry? s = some e ∧ ¬ e.stopped ∧ e.role = role := by
  simp [activeRole?, Option.filter_eq_some_iff, and_assoc]

theorem activeRole?_eq_none_iff : r.activeRole? s = none ↔ ∀ e, r.entry? s = some e → e.stopped := by
  simp [activeRole?, Option.filter_eq_none_iff]

theorem activeRole?_submit (c : Candidate) :
    (r.next (.submit s c)).activeRole? s = r.activeRole? s := by
  rw [next_submit]
  rcases r.submit_cases s c with ⟨_, _, _, _, _, _, hr⟩ | ⟨_, hr⟩
  · rw [hr]
  · rw [hr]
    rfl

namespace WellFormed
variable (w : r.WellFormed)
include w

theorem table_of_current {e : Entry} (h : r.entry? s = some e) (role : Role) :
    (r.table role).get? s = if role = e.role then some e else none := by
  have htable := w.entry?_eq_some_iff.mp h
  split
  · rename_i hrole
    rwa [hrole]
  · rename_i hne
    exact w.other_table htable (Ne.symm hne)

/-- A session that has a role keeps it when it asks for another one. -/
theorem activeRole?_register (role : Role) :
    (r.next (.register s role)).activeRole? s = some ((r.activeRole? s).getD role) := by
  have ho := r.perform_outcome (.register s role)
  revert ho
  generalize r.answer (.register s role) = ans
  generalize r.next (.register s role) = r'
  intro ho
  cases ho with
  | @roleTaken _ _ e he hs =>
    have hrole : r.activeRole? s = some e.role := activeRole?_eq_some_iff.mpr ⟨e, he, hs, rfl⟩
    rw [hrole]
    rfl
  | entered hnone =>
    have hfree : r.activeRole? s = none :=
      activeRole?_eq_none_iff.mpr fun e he => by cases hnone.symm.trans he
    rw [hfree]
    exact activeRole?_eq_some_iff.mpr ⟨_, (entry?_addAttempt hnone role s).trans (if_pos rfl),
      Bool.false_ne_true, rfl⟩
  | enteredAnew he hs =>
    have hfree : r.activeRole? s = none :=
      activeRole?_eq_none_iff.mpr fun e' he' => by cases he.symm.trans he'; exact hs
    rw [hfree]
    exact activeRole?_eq_some_iff.mpr ⟨_, (entry?_addAttempt (w.entry?_supersede_self he) role s).trans
      (if_pos rfl), Bool.false_ne_true, rfl⟩

theorem activeRole?_stop : (r.next (.stop s)).activeRole? s = none :=
  activeRole?_eq_none_iff.mpr fun _ he => w.stopped_of_stop he

theorem activeRole?_none_after {calls : List Call} (hno : ∀ role, Call.register s role ∉ calls)
    (h : r.activeRole? s = none) : (r.after calls).activeRole? s = none := by
  refine activeRole?_eq_none_iff.mpr fun e' he' => ?_
  obtain ⟨e, he, hev⟩ := w.current_unless_entered hno he'
  exact hev.stopped (activeRole?_eq_none_iff.mp h e he)

end WellFormed

end Registry

theorem Coordinator.prepare_of_active {c : Coordinator} {s : SessionId} {held : Role}
    (h : c.registry.activeRole? s = some held) (role : Role) (offer : String) :
    c.prepare s role offer = (.error (.roleTaken held),
      [⟨s, .rejected role (NegotiationFault.roleTaken held).message⟩],
      { c with metrics := c.metrics.countNegotiation (labels role .rejected) }) := by
  have hreserve : c.reserve s role offer = .error (.roleTaken held) := by
    cases role with
    | viewer =>
      simp only [reserve, snapshot, h]
      rfl
    | presenter =>
      obtain ⟨e, he, hs, rfl⟩ := Registry.activeRole?_eq_some_iff.mp h
      have hr : c.registry.register s .presenter = .error (.roleTaken e.role) := by
        simp [Registry.register, he, hs]
      simp only [reserve, snapshot, hr]
      rfl
  simp [prepare, hreserve, reject, NegotiationFault.isReported]

namespace Broadcast

/-- While a mix is published, a session that has no role gets the one it asks for. -/
theorem activeRole?_prepare {c : Coordinator} (w : c.registry.WellFormed)
    (hmix : c.mix.published.isSome) {s : SessionId} (role : Role) (offer : String) :
    (c.registry.after (requestCalls c (.prepare s role offer))).activeRole? s =
      some ((c.registry.activeRole? s).getD role) := by
  have hregister := w.activeRole?_register (s := s) role
  simp only [requestCalls]
  split
  · exact hregister
  · rename_i fault hrefused
    cases hactive : c.registry.activeRole? s with
    | some held => exact hactive
    | none =>
      obtain ⟨mix, hp⟩ := Option.isSome_iff_exists.mp hmix
      cases role with
      | presenter => cases hrefused
      | viewer => simp [Coordinator.snapshot, hactive, hp] at hrefused

theorem Consistent.ready_of_idle {b : Broadcast} (h : b.Consistent)
    (hidle : ∀ t, b.tasks.get? t = none) {e : Entry} (he : e ∈ b.coordinator.registry.entries) :
    e.phase = .ready := by
  cases hphase : e.phase with
  | ready => rfl
  | pending =>
    obtain ⟨t, n, stage, hleads, _⟩ := h.pending_led e he hphase
    cases (hidle t).symm.trans hleads.1

/-- When nobody works, a session that holds a role takes part in it, and nothing is left of any other. -/
theorem settled_of_idle {actions : List Action} (hidle : ∀ t, (run {} actions).tasks.get? t = none)
    {s : SessionId} : (run {} actions).coordinator.registry.Settled s
      ((run {} actions).coordinator.registry.activeRole? s) := by
  have h := consistent actions
  have w := h.wellFormed
  -- a stopped entry is led by a negotiation, so nothing that is left is stopped or superseded
  have hrunning : ∀ e ∈ (run {} actions).coordinator.registry.entries, ¬ e.stopped :=
    fun e he => (w.ready_not_stopped he (h.ready_of_idle hidle he)).1
  have hsuperseded : ∀ a, (run {} actions).coordinator.registry.superseded.get? a = none := by
    intro a
    rw [Option.eq_none_iff_forall_ne_some]
    intro e he
    exact hrunning e (Registry.mem_entries_of_superseded he) (w.superseded_stopped a e he)
  refine ⟨hsuperseded, ?_⟩
  cases hrole : (run {} actions).coordinator.registry.activeRole? s with
  | none =>
    refine Registry.entry?_eq_none_iff.mp (Option.eq_none_iff_forall_ne_some.mpr fun e he => ?_)
    exact hrunning e (Registry.mem_entries_of_current he) (Registry.activeRole?_eq_none_iff.mp hrole e he)
  | some role =>
    obtain ⟨e, he, _, rfl⟩ := Registry.activeRole?_eq_some_iff.mp hrole
    have hm := Registry.mem_entries_of_current he
    have hready := h.ready_of_idle hidle hm
    obtain ⟨_, hendpoint, hport⟩ := ready_has_media actions hm hready
    exact ⟨e, hready, hendpoint, hport, w.table_of_current he⟩

namespace Episode.Occurs
variable {x : Episode} (hx : x.Occurs) (h : x.before.Consistent) (hu : x.before.Undisturbed)
  (hquiet : x.action.disturbs = false) {s : SessionId}
include hx h hu hquiet

/-- While nothing goes wrong, a session is stopped by its own message only. -/
theorem message?_of_stops (hstop : .stop s ∈ x.calls) : x.action.message? s = some .stop := by
  cases hwas : x.was with
  | none =>
    cases hx with
    | turn | reply => cases hwas
    | @request b q =>
      change .stop s ∈ requestCalls b.coordinator q at hstop
      cases q with
      | prepare =>
        simp only [requestCalls] at hstop
        split at hstop
        · cases List.mem_singleton.mp hstop
        · cases hstop
      | stop s' =>
        cases List.mem_singleton.mp hstop
        exact if_pos rfl
      | submit => cases List.mem_singleton.mp hstop
      | shutdown => cases hquiet
      | requestMix | withdrawMix => cases hstop
  | some task =>
    have hkept := hu.kept x.task task ((hx.taken h).task.trans hwas)
    cases task with
    | negotiation n stage => cases (calls_name hwas hstop).1
    | shutdown => cases hkept
    | _ => simp [calls, hwas, taskCalls] at hstop

/-- While nothing goes wrong, who clears the candidates of a session finds that it was stopped. -/
theorem stopped_of_clears {d : Registry.Deed} (hd : d ∈ x.before.coordinator.registry.log x.calls)
    (hclears : d.call.clears d.before s) (hno : x.action.message? s ≠ some .stop) :
    x.before.coordinator.registry.activeRole? s = none := by
  have w := h.wellFormed
  rcases (hx.taken h).follows.move.clears_cases hd hclears with hstop | ⟨n, stage, hwas, hlive, rfl,
    _, hcalls, rfl, hcurrent⟩
  · exact absurd (hx.message?_of_stops h hu hquiet hstop) hno
  · -- a negotiation that gives up its current entry did so because the entry is stopped
    have hgave : x.result.task.gaveUp := by
      by_contra hno
      rw [calls_of_live hwas hlive, negotiationCalls, if_neg hno] at hcalls
      simp at hcalls
    have hrunning := hx.running?_of_gaveUp h hu hquiet hwas hlive hgave
    refine Registry.activeRole?_eq_none_iff.mpr fun e he => ?_
    -- what the negotiation asked for before does not make another entry the current one
    have hasks : ∀ role, Registry.Call.register n.session role ∉
        (stage.asks n x.action.reply?).toList := by
      intro role hm
      exact (NegotiationStage.asks_attempt? (Option.mem_toList.mp hm)).2.2.2 _ _ rfl
    obtain ⟨e', he', ha⟩ := Registry.isCurrent_iff.mp hcurrent
    obtain ⟨e₀, he₀, hev⟩ := w.current_unless_entered hasks he'
    cases he.symm.trans he₀
    by_contra hno
    have hfound := (Registry.running?_eq_some_iff _ _ _ _).mpr ⟨w.attempt?_of_current he, hno⟩
    rw [← hev.attempt, ha, hrunning] at hfound
    cases hfound

theorem activeRole?_step {sofar : List ClientMessage}
    (hmix : (x.action.message? s).isSome → x.before.coordinator.mix.published.isSome)
    (hrole : x.before.coordinator.registry.activeRole? s = roleAsked sofar) :
    x.after.coordinator.registry.activeRole? s =
      roleAsked (sofar ++ (x.action.message? s).toList) := by
  have w := h.wellFormed
  have hregistry := hx.registry_after h
  rw [hregistry]
  cases hm : x.action.message? s with
  | none =>
    -- without a message the session is not entered, and nobody removes what has a role
    rw [Option.toList_none, List.append_nil, ← hrole]
    have hno : ∀ role, Registry.Call.register s role ∉ x.calls := by
      intro role hcall
      obtain ⟨offer, ha⟩ := hx.prepares_of_registers h hcall
      simp [ha, Action.message?] at hm
    cases hbefore : x.before.coordinator.registry.activeRole? s with
    | none => exact w.activeRole?_none_after hno hbefore
    | some role =>
      obtain ⟨e, he, hs, hr⟩ := Registry.activeRole?_eq_some_iff.mp hbefore
      have hpasses := (hx.taken h).follows.move.passes w (h.hasEntry_before (hx.taken h).task) s
      have hstays : ∀ d ∈ x.before.coordinator.registry.log x.calls,
          d.call.clears d.before s = false := by
        intro d hd
        by_contra hclears
        have hnone := hx.stopped_of_clears h hu hquiet hd (Bool.not_eq_false _ ▸ hclears) (by simp [hm])
        cases hbefore.symm.trans hnone
      obtain ⟨e', he', hc⟩ := hpasses.continues w hstays he hs
      have hev := w.evolves_after x.calls (Registry.mem_entries_of_current he)
        (Registry.mem_entries_of_current he') hc.attempt
      exact Registry.activeRole?_eq_some_iff.mpr ⟨e', he', hc.running, hev.role.trans hr⟩
  | some m =>
    rw [Option.toList_some, roleAsked_append, ← hrole]
    rcases message?_cases hm with ⟨role, offer, rfl, ha⟩ | ⟨rfl, leaving, ha⟩ | ⟨c, rfl, ha⟩
    · rw [(hx.calls_of_request ha).2]
      exact (activeRole?_prepare w (hmix (by rw [hm]; rfl)) role offer).trans Option.or_some.symm
    · rw [(hx.calls_of_request ha).2]
      exact w.activeRole?_stop
    · rw [(hx.calls_of_request ha).2]
      exact (Registry.activeRole?_submit c).trans (Option.or_none).symm

end Episode.Occurs

theorem activeRole?_run {s : SessionId} {start actions : List Action}
    (hquiet : ∀ a ∈ start ++ actions, a.disturbs = false)
    (hnone : (run {} start).coordinator.registry.activeRole? s = none)
    (hmix : (∃ a ∈ actions, (a.message? s).isSome) →
      (run {} start).coordinator.mix.published.isSome) :
    (run {} (start ++ actions)).coordinator.registry.activeRole? s =
      roleAsked (messages s actions) := by
  refine (messages_induction start (P := fun sofar b =>
    ((∃ a ∈ actions, (a.message? s).isSome) → b.coordinator.mix.published.isSome) ∧
    b.coordinator.registry.activeRole? s = roleAsked sofar) ⟨hmix, hnone⟩ ?_).2
  -- the mix that is published at the start stays, so every message of the session finds it
  rintro sofar x ⟨hp, hrole⟩ hx ⟨earlier, later, rfl, hat, _⟩
  have h : x.before.Consistent := hat ▸ consistent _
  have hl : x.before.Locked := hat ▸ locked _
  have hu : x.before.Undisturbed := by
    rw [hat]
    refine undisturbed fun a ha => hquiet a ?_
    rcases List.mem_append.mp ha with ha | ha
    · exact List.mem_append_left _ ha
    · exact List.mem_append_right _ (List.mem_append_left _ ha)
  have hnow : x.action.disturbs = false := hquiet _ (by simp)
  refine ⟨fun hsome => ?_, hx.activeRole?_step h hu hnow (fun hm => hp ⟨_, by simp, hm⟩) hrole⟩
  obtain ⟨mix, hpublished⟩ := Option.isSome_iff_exists.mp (hp hsome)
  exact Option.isSome_of_eq_some (hx.published_stays h hu hnow hl hpublished)

/-- What is served when the inputs come one after the other. -/
def served (limit : Nat) (s : SessionId) (inputs : List Input) : List Action :=
  inputs.filterMap (Input.action? limit s)

/-- The role that a session has asked for with its texts. -/
def asked (limit : Nat) (s : SessionId) (inputs : List Input) : Option Role :=
  roleAsked (messages s (served limit s inputs))

section Inputs
variable {limit : Nat} {s : SessionId} {before : List Action} {inputs : List Input}
  (hbefore : ∀ a ∈ before, a.disturbs = false ∧ a.message? s = none)
  (hmix : (run {} before).coordinator.mix.published.isSome)
  (hothers : ∀ a, .action a ∈ inputs → a.disturbs = false)
include hbefore hmix hothers

theorem activeRole?_served :
    (run {} (before ++ served limit s inputs)).coordinator.registry.activeRole? s =
      asked limit s inputs := by
  have hquiet : ∀ a ∈ served limit s inputs, a.disturbs = false := by
    intro a ha
    obtain ⟨input, hm, hinput⟩ := List.mem_filterMap.mp ha
    cases input with
    | action =>
      cases hinput
      exact hothers _ hm
    | text content =>
      obtain ⟨m, _, rfl⟩ := Option.map_eq_some_iff.mp hinput
      cases m <;> rfl
  have hnone := @activeRole?_run s [] before (fun a ha => (hbefore a ha).1) rfl
    fun ⟨a, ha, hm⟩ => by simp [(hbefore a ha).2] at hm
  rw [List.nil_append, messages, List.filterMap_eq_nil_iff.mpr fun a ha => (hbefore a ha).2] at hnone
  refine activeRole?_run (fun a ha => ?_) hnone fun _ => hmix
  rcases List.mem_append.mp ha with ha | ha
  · exact (hbefore a ha).1
  · exact hquiet a ha

/--
While nothing goes wrong and a mix is published before a session sends its first text, the texts of the
session decide what becomes of it, whatever its own negotiations and those of others do meanwhile. When
all tasks are done, it takes part in the role that it asked for first since it last asked to be stopped,
with an endpoint and a port, and otherwise it is not entered. Whatever role it asked for in between was
refused, because it held the first one.
-/
theorem final_role :
    ((∀ t, (run {} (before ++ served limit s inputs)).tasks.get? t = none) →
      (run {} (before ++ served limit s inputs)).coordinator.registry.Settled s (asked limit s inputs)) ∧
    ∀ earlier text later held role offer, inputs = earlier ++ .text text :: later →
      asked limit s earlier = some held → ClientMessage.decode limit text = .ok (.join role offer) →
      let c := (run {} (before ++ served limit s earlier)).coordinator
      c.dispatch limit s text =
        { coordinator := { c with
            metrics := c.metrics.countNegotiation (Coordinator.labels role .rejected) }
          notices := [⟨s, .rejected role (NegotiationFault.roleTaken held).message⟩] } := by
  constructor
  · intro hidle
    rw [← activeRole?_served hbefore hmix hothers]
    exact settled_of_idle hidle
  · rintro earlier text later held role offer rfl hasked hread
    have hheld := @activeRole?_served limit s before earlier hbefore hmix
      fun a ha => hothers a (List.mem_append_left _ ha)
    rw [hasked] at hheld
    unfold Coordinator.dispatch
    rw [hread]
    simp only [Coordinator.obey, Coordinator.prepare_of_active hheld]

end Inputs

/-- Another session presents before the client begins. -/
def othersPresent : List Action :=
  [.request (.prepare ⟨2⟩ .presenter "theirs"), .turn ⟨0⟩, .reply ⟨0⟩ (.ok "pipeline"),
    .reply ⟨0⟩ (.ok "mixer"), .reply ⟨0⟩ (.ok "endpoint"), .reply ⟨0⟩ (.ok "port"), .reply ⟨0⟩ (.ok ""),
    .reply ⟨0⟩ (.ok ""), .reply ⟨0⟩ (.ok "answer"), .reply ⟨0⟩ (.ok "")]

/-- A client that is about to present stops and views instead, while its first endpoint is being made. -/
def changesRole : List Input :=
  [.text (ClientMessage.join .presenter "offer").text, .action (.turn ⟨1⟩),
    .text ClientMessage.stop.text, .text (ClientMessage.join .viewer "anew").text]

/-- Then both negotiations come to their ends. -/
def bothEnd : List Input :=
  [.text "?", .action (.turn ⟨3⟩), .action (.reply ⟨1⟩ (.ok "old")), .action (.reply ⟨1⟩ (.ok "")),
    .action (.reply ⟨3⟩ (.ok "new")), .action (.reply ⟨3⟩ (.ok "other port")),
    .action (.reply ⟨3⟩ (.ok "")), .action (.reply ⟨3⟩ (.ok "")), .action (.reply ⟨3⟩ (.ok "answer")),
    .action (.reply ⟨3⟩ (.ok ""))]

/-- In between it asks to present again. -/
def asksAgain : String := (ClientMessage.join .presenter "again").text

/-- It views, and its last request is refused because it does. -/
theorem views_after_change :
    (run {} (othersPresent ++
      served 4096 ⟨1⟩ (changesRole ++ .text asksAgain :: bothEnd))).coordinator.registry.Settled
        ⟨1⟩ (some .viewer) ∧
    ((run {} (othersPresent ++ served 4096 ⟨1⟩ changesRole)).coordinator.dispatch
        4096 ⟨1⟩ asksAgain).notices =
      [⟨⟨1⟩, .rejected .presenter (NegotiationFault.roleTaken .viewer).message⟩] := by
  have hread : ClientMessage.decode 4096 asksAgain = .ok (.join .presenter "again") := by cbv
  have hheld : asked 4096 ⟨1⟩ changesRole = some .viewer := by cbv
  have hasked : asked 4096 ⟨1⟩ (changesRole ++ .text asksAgain :: bothEnd) = some .viewer := by cbv
  obtain ⟨hsettled, hrefused⟩ := @final_role 4096 ⟨1⟩ othersPresent
    (changesRole ++ .text asksAgain :: bothEnd)
    (by simp [othersPresent, Action.disturbs, Action.message?]) rfl
    (by simp [changesRole, bothEnd, Action.disturbs])
  have hserved : served 4096 ⟨1⟩ (changesRole ++ .text asksAgain :: bothEnd) =
      [.request (.prepare ⟨1⟩ .presenter "offer"), .turn ⟨1⟩, .request (.stop ⟨1⟩ false),
        .request (.prepare ⟨1⟩ .viewer "anew"), .request (.prepare ⟨1⟩ .presenter "again"),
        .turn ⟨3⟩, .reply ⟨1⟩ (.ok "old"), .reply ⟨1⟩ (.ok ""), .reply ⟨3⟩ (.ok "new"),
        .reply ⟨3⟩ (.ok "other port"), .reply ⟨3⟩ (.ok ""), .reply ⟨3⟩ (.ok ""),
        .reply ⟨3⟩ (.ok "answer"), .reply ⟨3⟩ (.ok "")] := by cbv
  have hidle := Table.get?_of_isEmpty (t := (run {} (othersPresent ++
    served 4096 ⟨1⟩ (changesRole ++ .text asksAgain :: bothEnd))).tasks)
    (by rw [hserved]; decide +kernel)
  rw [hasked] at hsettled
  refine ⟨hsettled hidle, ?_⟩
  rw [hrefused changesRole asksAgain bothEnd .viewer .presenter "again" rfl hheld hread]

end Broadcast

end Rostrum
