import Rostrum.Proofs.Broadcast.Steps
import Rostrum.Proofs.Registry.Frame

/-!
# Negotiations and their entries

Every negotiation that was not given up has an entry of its own in the registry, current or superseded,
which is pending and holds what the negotiation has made so far; and every pending entry belongs to
such a negotiation. Nobody else can take the entry away: the calls of other tasks do not name its
attempt, and a stop only marks it.
-/

namespace Rostrum

/-- What the entry of a negotiation holds at a stage. -/
def NegotiationStage.Fits : NegotiationStage → Entry → Prop
  | .prepared, e => e.endpoint = none ∧ e.port = none ∧ e.endpointReady = false
  | .obtainingMix _, e => e.endpoint = none ∧ e.port = none ∧ e.endpointReady = false
  | .creatingEndpoint _, e => e.endpoint = none ∧ e.port = none ∧ e.endpointReady = false
  | .creatingPort _ endpoint, e =>
    e.endpoint = some endpoint ∧ e.port = none ∧ e.endpointReady = false
  | .connecting endpoint port, e =>
    e.endpoint = some endpoint ∧ e.port = some port ∧ e.endpointReady = false
  | .applying endpoint _, e => e.endpoint = some endpoint ∧ e.endpointReady = false
  | .subscribing endpoint, e => e.endpoint = some endpoint ∧ e.endpointReady = true
  | .offering endpoint, e => e.endpoint = some endpoint ∧ e.endpointReady = true
  | .gathering endpoint _, e => e.endpoint = some endpoint ∧ e.endpointReady = true
  | .releasing _ _ _ _, _ => True

namespace NegotiationStage

theorem fits_of_seeksMix {stage : NegotiationStage} (h : stage.seeksMix) {e : Entry} :
    stage.Fits e ↔ e.endpoint = none ∧ e.port = none ∧ e.endpointReady = false := by
  cases stage <;> first | exact Iff.rfl | cases h

theorem fits_of_drains {stage : NegotiationStage} {endpoint : Endpoint} (h : stage.Drains endpoint)
    {e : Entry} (hfits : stage.Fits e) : e.endpoint = some endpoint ∧ e.endpointReady = false := by
  cases h with
  | connecting => exact ⟨hfits.1, hfits.2.2⟩
  | applying => exact hfits

theorem fits_of_drained {stage : NegotiationStage} {endpoint : Endpoint} (h : stage.Drained endpoint)
    {e : Entry} : stage.Fits e ↔ e.endpoint = some endpoint ∧ e.endpointReady = true := by
  cases h <;> exact Iff.rfl

theorem isLive_of_drains {stage : NegotiationStage} {endpoint : Endpoint}
    (h : stage.Drains endpoint) : stage.isLive := by
  cases h <;> rfl

theorem isLive_of_drained {stage : NegotiationStage} {endpoint : Endpoint}
    (h : stage.Drained endpoint) : stage.isLive := by
  cases h <;> rfl

/-- A stop does not change what an entry holds. -/
theorem fits_stopped {stage : NegotiationStage} {e : Entry} (h : stage.Fits e) :
    stage.Fits { e with stopped := true } := by
  cases stage <;> exact h

theorem asks_attempt? {stage : NegotiationStage} {n : Negotiation} {reply : Option Reply}
    {call : Registry.Call} (h : stage.asks n reply = some call) :
    call.attempt? = some n.attempt ∧ call.session = n.session ∧ stage.isLive ∧
      ∀ s role, call ≠ .register s role := by
  unfold asks at h
  split at h <;> first | (cases h; exact ⟨rfl, rfl, rfl, fun _ _ h => by cases h⟩) | cases h

end NegotiationStage

namespace Broadcast

/-- The registry has the entry of a negotiation. -/
def HasEntry (r : Registry) (n : Negotiation) (stage : NegotiationStage) : Prop :=
  ∃ e, r.attempt? n.session n.attempt = some e ∧ e.phase = .pending ∧ stage.Fits e

theorem HasEntry.keeps {r : Registry} (w : r.WellFormed) {n : Negotiation} {stage : NegotiationStage}
    (h : HasEntry r n stage) {calls : List Registry.Call}
    (hne : ∀ call ∈ calls, call.attempt? ≠ some n.attempt) : HasEntry (r.after calls) n stage := by
  obtain ⟨e, he, hp, hfits⟩ := h
  obtain ⟨e', he', hev⟩ := w.keeps_after he hp hne
  refine ⟨e', he', ?_⟩
  rcases hev with rfl | rfl
  · exact ⟨hp, hfits⟩
  · exact ⟨hp, NegotiationStage.fits_stopped hfits⟩

theorem Disposes.not_live {before : Option Teardown} {es : List Entry} {after : Option Task}
    (h : Disposes before es after) {n : Negotiation} {stage : NegotiationStage}
    (hafter : after = some (.negotiation n stage)) : stage.isLive = false := by
  subst hafter
  cases h with
  | goesOn _ ht | begins _ _ _ ht => cases stage <;> first | rfl | cases ht
  | ends _ _ hmix => cases hmix _ rfl

/-- A negotiation still has its entry after what it asked of the registry. -/
theorem HasEntry.asks {r : Registry} (w : r.WellFormed) {n : Negotiation} {stage : NegotiationStage}
    (h : HasEntry r n stage) (reply : Option Reply) :
    ∃ e, (r.after (stage.asks n reply).toList).attempt? n.session n.attempt = some e ∧
      (e.stopped ↔ r.running? n.session n.attempt = none) := by
  obtain ⟨e, he, _⟩ := h
  have hstopped : e.stopped ↔ r.running? n.session n.attempt = none := by
    simp [Registry.running?, he]
  cases hask : stage.asks n reply with
  | none => exact ⟨e, he, hstopped⟩
  | some call =>
    obtain ⟨ha, hs, _⟩ := NegotiationStage.asks_attempt? hask
    have hno := NegotiationStage.not_takes_of_asks hask
    rw [← hs] at he
    obtain ⟨e', he', hsame⟩ := w.attempt?_kept he ha hno
    rw [← hsame] at hstopped
    exact ⟨e', hs ▸ he', hstopped⟩

namespace Move
variable {r : Registry} {before after : Option Task} {reply : Option Reply}
  {calls : List Registry.Call} (m : Move r before reply calls after)
include m

theorem names_own {call : Registry.Call} (hcall : call ∈ calls) {a : Attempt}
    (ha : call.attempt? = some a) :
    ∃ n stage, before = some (.negotiation n stage) ∧ stage.isLive ∧ n.attempt = a := by
  cases m with
  | enters | refused | buffers | applies =>
    obtain rfl := List.mem_singleton.mp hcall
    cases ha
  | disposes =>
    obtain ⟨s, _, rfl⟩ := List.mem_map.mp hcall
    cases ha
  | waits | obtains | goesOn => cases hcall
  | endpointMade | portMade | completes =>
    obtain rfl := List.mem_singleton.mp hcall
    exact ⟨_, _, rfl, rfl, Option.some.inj ha⟩
  | applying hdrains | drained hdrains =>
    obtain rfl := List.mem_singleton.mp hcall
    exact ⟨_, _, rfl, NegotiationStage.isLive_of_drains hdrains, Option.some.inj ha⟩
  | givesUp hlive =>
    refine ⟨_, _, rfl, hlive, ?_⟩
    rcases List.mem_append.mp hcall with hask | hremove
    · rw [(NegotiationStage.asks_attempt? (Option.mem_toList.mp hask)).1] at ha
      exact Option.some.inj ha
    · obtain rfl := List.mem_singleton.mp hremove
      exact Option.some.inj ha

/-- The entry of a negotiation that goes on fits its new stage. -/
theorem hasEntry (w : r.WellFormed)
    (hbefore : ∀ n stage, before = some (.negotiation n stage) → stage.isLive → HasEntry r n stage)
    {n : Negotiation} {stage : NegotiationStage} (hafter : after = some (.negotiation n stage))
    (hlive : stage.isLive) : HasEntry (r.after calls) n stage := by
  cases m with
  | refused | buffers | applies | completes => cases hafter
  | enters hentered =>
    cases hafter
    exact ⟨_, (w.attempt?_register hentered).2.1, rfl, rfl, rfl, rfl⟩
  | disposes _ hd | givesUp _ _ hd => exact absurd hlive (by simp [hd.not_live hafter])
  | waits hseeks | obtains hseeks =>
    cases hafter
    obtain ⟨e, he, hp, hfits⟩ := hbefore _ _ rfl (NegotiationStage.isLive_of_seeksMix hseeks)
    exact ⟨e, he, hp, (NegotiationStage.fits_of_seeksMix hseeks).mp hfits⟩
  | endpointMade =>
    cases hafter
    obtain ⟨e, he, hp, _, hport, hready⟩ := hbefore _ _ rfl rfl
    exact ⟨_, w.attempt?_setEndpoint he _, hp, rfl, hport, hready⟩
  | portMade =>
    cases hafter
    obtain ⟨e, he, hp, hep, _, hready⟩ := hbefore _ _ rfl rfl
    exact ⟨_, w.attempt?_setPort he _, hp, hep, rfl, hready⟩
  | applying hdrains hsome =>
    cases hafter
    obtain ⟨e, he, hp, hfits⟩ := hbefore _ _ rfl (NegotiationStage.isLive_of_drains hdrains)
    exact ⟨e, (Registry.WellFormed.attempt?_popped hsome _ _).trans he, hp,
      NegotiationStage.fits_of_drains hdrains hfits⟩
  | drained hdrains hnone =>
    cases hafter
    obtain ⟨e, he, hp, hfits⟩ := hbefore _ _ rfl (NegotiationStage.isLive_of_drains hdrains)
    exact ⟨_, w.attempt?_drained he hnone, hp, (NegotiationStage.fits_of_drains hdrains hfits).1, rfl⟩
  | goesOn hdrained hdrained' =>
    cases hafter
    obtain ⟨e, he, hp, hfits⟩ := hbefore _ _ rfl (NegotiationStage.isLive_of_drained hdrained)
    exact ⟨e, he, hp, (NegotiationStage.fits_of_drained hdrained').mpr
      ((NegotiationStage.fits_of_drained hdrained).mp hfits)⟩

/-- What becomes of a negotiation in a step: it goes on, it is removed, or it is completed. -/
theorem fate (w : r.WellFormed) {n : Negotiation} {stage : NegotiationStage}
    (hbefore : before = some (.negotiation n stage)) (hlive : stage.isLive) (h : HasEntry r n stage) :
    (∃ stage', after = some (.negotiation n stage') ∧ stage'.isLive) ∨
    (∀ e ∈ (r.after calls).entries, e.attempt ≠ n.attempt) ∨
    (∃ endpoint answer, stage = .gathering endpoint answer) ∧
      ∀ e ∈ (r.after calls).entries, e.attempt = n.attempt → e.phase = .ready := by
  cases m with
  | enters | refused | buffers | applies => cases hbefore
  | disposes hno =>
    have hlive' := hno _ hbefore
    simp [Task.live?, hlive] at hlive'
  | waits | obtains | endpointMade | portMade | applying | drained =>
    cases hbefore
    exact Or.inl ⟨_, rfl, rfl⟩
  | goesOn _ hdrained =>
    cases hbefore
    exact Or.inl ⟨_, rfl, NegotiationStage.isLive_of_drained hdrained⟩
  | completes hgranted =>
    cases hbefore
    obtain ⟨e, he, _⟩ := h
    have he' := w.attempt?_finish he hgranted
    refine Or.inr (Or.inr ⟨⟨_, _, rfl⟩, ?_⟩)
    intro x hx hxa
    have w' := w.next (.finish n.session n.attempt)
    rw [w'.eq_of_attempt? he' hx hxa]
  | givesUp =>
    cases hbefore
    obtain ⟨e, he, _⟩ := h.asks w reply
    refine Or.inr (Or.inl ?_)
    intro x hx
    rw [Registry.after_append] at hx
    exact (w.after _).not_mem_after_remove he hx

/-- A negotiation after a step is the one before, or it has the next attempt number. -/
theorem origin (w : r.WellFormed) {n : Negotiation} {stage : NegotiationStage}
    (hafter : after = some (.negotiation n stage)) (hlive : stage.isLive) :
    (∃ stage', before = some (.negotiation n stage') ∧ stage'.isLive) ∨
      n.attempt = ⟨r.lastAttempt + 1⟩ := by
  cases m with
  | refused | buffers | applies | completes => cases hafter
  | enters hentered =>
    cases hafter
    exact Or.inr (w.attempt?_register hentered).1
  | disposes _ hd | givesUp _ _ hd => exact absurd hlive (by simp [hd.not_live hafter])
  | waits hseeks | obtains hseeks =>
    cases hafter
    exact Or.inl ⟨_, rfl, NegotiationStage.isLive_of_seeksMix hseeks⟩
  | endpointMade | portMade =>
    cases hafter
    exact Or.inl ⟨_, rfl, rfl⟩
  | applying hdrains | drained hdrains =>
    cases hafter
    exact Or.inl ⟨_, rfl, NegotiationStage.isLive_of_drains hdrains⟩
  | goesOn hdrained =>
    cases hafter
    exact Or.inl ⟨_, rfl, NegotiationStage.isLive_of_drained hdrained⟩

/-- A new entry belongs to the negotiation that was entered. -/
theorem new_entry (w : r.WellFormed) {e : Entry} (he : e ∈ (r.after calls).entries)
    (hlt : r.lastAttempt < e.attempt.number) :
    ∃ n stage, after = some (.negotiation n stage) ∧ stage.isLive ∧ n.attempt = e.attempt := by
  have hle := (w.after calls).attempt_le e he
  -- only a registration raises the number of the last attempt
  have hsame : ∀ {calls : List Registry.Call}, (∀ call ∈ calls, ∀ s role, call ≠ .register s role) →
      e.attempt.number ≤ (r.after calls).lastAttempt → False := by
    intro calls hno hle
    rw [Registry.WellFormed.after_lastAttempt hno] at hle
    omega
  cases m with
  | @enters s role offer snapshot a hentered =>
    obtain ⟨rfl, _, hlast⟩ := w.attempt?_register hentered
    refine ⟨_, _, rfl, rfl, ?_⟩
    change e.attempt.number ≤ (r.next (.register s role)).lastAttempt at hle
    have hnumber : e.attempt.number = r.lastAttempt + 1 := by omega
    exact congrArg Attempt.mk hnumber.symm
  | refused hrefused =>
    have hnext : r.after [.register _ _] = r := Registry.WellFormed.next_refused hrefused
    rw [hnext] at hle
    omega
  | givesUp _ _ =>
    refine (hsame ?_ hle).elim
    intro call hcall
    rcases List.mem_append.mp hcall with hask | hremove
    · exact (NegotiationStage.asks_attempt? (Option.mem_toList.mp hask)).2.2.2
    · obtain rfl := List.mem_singleton.mp hremove
      exact fun _ _ h => by cases h
  | disposes =>
    refine (hsame ?_ hle).elim
    intro call hcall
    obtain ⟨s, _, rfl⟩ := List.mem_map.mp hcall
    exact fun _ _ h => by cases h
  | waits | obtains | goesOn => exact (hsame (by simp) hle).elim
  | buffers | applies | endpointMade | portMade | applying | drained | completes =>
    exact (hsame (by simp) hle).elim

end Move

section Tasks
variable (b : Broadcast)

/-- A task leads a negotiation that was not given up. -/
def Leads (t : TaskId) (n : Negotiation) (stage : NegotiationStage) : Prop :=
  b.tasks.get? t = some (.negotiation n stage) ∧ stage.isLive

/-- What holds of every broadcast between two steps. -/
structure Consistent : Prop where
  wellFormed : b.coordinator.registry.WellFormed
  tasks_distinct : b.tasks.Distinct
  task_lt : ∀ t task, b.tasks.get? t = some task → t.number < b.nextTask
  hasEntry : ∀ t n stage, b.Leads t n stage → HasEntry b.coordinator.registry n stage
  one_leader : ∀ t t' n n' stage stage', b.Leads t n stage → b.Leads t' n' stage' →
    n.attempt = n'.attempt → t = t'
  pending_led : ∀ e ∈ b.coordinator.registry.entries, e.phase = .pending →
    ∃ t n stage, b.Leads t n stage ∧ n.attempt = e.attempt
  ready_endpoint : ∀ e ∈ b.coordinator.registry.entries, e.phase = .ready → e.endpoint.isSome

theorem consistent_empty : Consistent {} where
  wellFormed := Registry.wellFormed_empty
  tasks_distinct := Table.distinct_empty
  task_lt _ _ h := by cases h
  hasEntry _ _ _ h := by cases h.1
  one_leader _ _ _ _ _ _ h := by cases h.1
  pending_led e h := by cases Multiset.notMem_zero e h
  ready_endpoint e h := by cases Multiset.notMem_zero e h

variable {b} {t : TaskId} {before : Option Task} {reply : Option Reply}
  {calls : List Registry.Call} {result : StepResult}

theorem get?_take (t' : TaskId) :
    (b.take t before reply calls result).tasks.get? t' =
      if t = t' then result.task.ongoing? else b.tasks.get? t' := by
  unfold take
  cases h : result.task.ongoing? with
  | none => exact Table.get?_erase _ _ _
  | some task => exact Table.get?_put _ _ _ _

theorem leads_take_of_ne {t' : TaskId} (hne : t ≠ t') {n : Negotiation} {stage : NegotiationStage} :
    (b.take t before reply calls result).Leads t' n stage ↔ b.Leads t' n stage := by
  unfold Leads
  rw [get?_take, if_neg hne]

theorem leads_take_self {n : Negotiation} {stage : NegotiationStage} :
    (b.take t before reply calls result).Leads t n stage ↔
      result.task.ongoing? = some (.negotiation n stage) ∧ stage.isLive := by
  unfold Leads
  rw [get?_take, if_pos rfl]

namespace Consistent
variable (h : b.Consistent) (hbefore : b.tasks.get? t = before)
include h hbefore

theorem hasEntry_before (n : Negotiation) (stage : NegotiationStage)
    (hb : before = some (.negotiation n stage)) (hlive : stage.isLive) :
    HasEntry b.coordinator.registry n stage :=
  h.hasEntry t n stage ⟨hbefore.trans hb, hlive⟩

variable (hf : Follows b.coordinator before reply calls result)
include hf

theorem keeps_others {t' : TaskId} (hne : t ≠ t') {n : Negotiation} {stage : NegotiationStage}
    (hleads : b.Leads t' n stage) : HasEntry result.coordinator.registry n stage := by
  rw [hf.registry]
  refine (h.hasEntry t' n stage hleads).keeps h.wellFormed ?_
  intro call hcall hnames
  obtain ⟨n', stage', hb, hlive', ha⟩ := hf.move.names_own hcall hnames
  exact hne (h.one_leader t t' n' n stage' stage ⟨hbefore.trans hb, hlive'⟩ hleads ha)

theorem hasEntry_self {n : Negotiation} {stage : NegotiationStage}
    (hafter : result.task.ongoing? = some (.negotiation n stage)) (hlive : stage.isLive) :
    HasEntry result.coordinator.registry n stage := by
  rw [hf.registry]
  exact hf.move.hasEntry h.wellFormed (h.hasEntry_before hbefore) hafter hlive

theorem attempt_ne {t' : TaskId} (hne : t ≠ t') {n n' : Negotiation} {stage stage' : NegotiationStage}
    (hafter : result.task.ongoing? = some (.negotiation n stage)) (hlive : stage.isLive)
    (hleads : b.Leads t' n' stage') : n.attempt ≠ n'.attempt := by
  intro ha
  rcases hf.move.origin h.wellFormed hafter hlive with ⟨stage₀, hb, hlive₀⟩ | hnew
  · exact hne (h.one_leader t t' n n' stage₀ stage' ⟨hbefore.trans hb, hlive₀⟩ hleads ha)
  · obtain ⟨e, he, _⟩ := h.hasEntry t' n' stage' hleads
    exact h.wellFormed.attempt_ne_new he (ha.symm.trans hnew)

theorem pending_led_take {e : Entry} (he : e ∈ result.coordinator.registry.entries)
    (hp : e.phase = .pending) :
    ∃ t' n stage, (b.take t before reply calls result).Leads t' n stage ∧ n.attempt = e.attempt := by
  have w := h.wellFormed
  rw [hf.registry] at he
  by_cases hle : e.attempt.number ≤ b.coordinator.registry.lastAttempt
  · obtain ⟨x, hx, hev⟩ := (w.after_changes calls).origin w he hle
    have hxp : x.phase = .pending := by
      cases hphase : x.phase with
      | pending => rfl
      | ready =>
        rw [hev.phase hphase] at hp
        cases hp
    obtain ⟨t', n, stage, hleads, ha⟩ := h.pending_led x hx hxp
    have ha' : n.attempt = e.attempt := ha.trans hev.attempt.symm
    by_cases hne : t = t'
    · subst hne
      have hb : before = some (.negotiation n stage) := hbefore.symm.trans hleads.1
      rcases hf.move.fate w hb hleads.2 (h.hasEntry t n stage hleads) with
        ⟨stage', hafter, hlive'⟩ | hgone | ⟨_, hready⟩
      · exact ⟨t, n, stage', leads_take_self.mpr ⟨hafter, hlive'⟩, ha'⟩
      · exact absurd ha'.symm (hgone e he)
      · rw [hready e he ha'.symm] at hp
        cases hp
    · exact ⟨t', n, stage, (leads_take_of_ne hne).mpr hleads, ha'⟩
  · obtain ⟨n, stage, hafter, hlive, ha⟩ := hf.move.new_entry w he (by omega)
    exact ⟨t, n, stage, leads_take_self.mpr ⟨hafter, hlive⟩, ha⟩

/-- A ready entry was ready before, or its negotiation had nothing left to do but this step. -/
theorem ready_origin {e : Entry} (he : e ∈ result.coordinator.registry.entries)
    (hready : e.phase = .ready) :
    ∃ x ∈ b.coordinator.registry.entries, Registry.Evolves x e ∧ (x.phase = .ready ∨
      ∃ n endpoint answer, before = some (.negotiation n (.gathering endpoint answer)) ∧
        n.attempt = x.attempt) := by
  have w := h.wellFormed
  have w' : result.coordinator.registry.WellFormed := hf.registry ▸ w.after calls
  -- an entry that is led is pending
  have hnot : ∀ n stage, HasEntry result.coordinator.registry n stage → n.attempt ≠ e.attempt := by
    rintro n stage ⟨x, hx, hp, _⟩ ha
    obtain rfl := w'.eq_of_attempt? hx he ha.symm
    rw [hready] at hp
    cases hp
  have he' := he
  rw [hf.registry] at he'
  by_cases hle : e.attempt.number ≤ b.coordinator.registry.lastAttempt
  · obtain ⟨x, hx, hev⟩ := (w.after_changes calls).origin w he' hle
    refine ⟨x, hx, hev, ?_⟩
    cases hphase : x.phase with
    | ready => exact Or.inl rfl
    | pending =>
      obtain ⟨t', n, stage, hleads, ha⟩ := h.pending_led x hx hphase
      have ha' : n.attempt = e.attempt := ha.trans hev.attempt.symm
      by_cases hne : t = t'
      · subst hne
        have hb : before = some (.negotiation n stage) := hbefore.symm.trans hleads.1
        rcases hf.move.fate w hb hleads.2 (h.hasEntry t n stage hleads) with
          ⟨stage', hafter, hlive'⟩ | hgone | ⟨⟨endpoint, answer, rfl⟩, _⟩
        · exact absurd ha' (hnot n stage' (h.hasEntry_self hbefore hf hafter hlive'))
        · exact absurd ha'.symm (hgone e he')
        · exact Or.inr ⟨n, endpoint, answer, hb, ha⟩
      · exact absurd ha' (hnot n stage (h.keeps_others hbefore hf hne hleads))
  · obtain ⟨n, stage, hafter, hlive, ha⟩ := hf.move.new_entry w he' (by omega)
    exact absurd ha (hnot n stage (h.hasEntry_self hbefore hf hafter hlive))

theorem ready_endpoint_take {e : Entry} (he : e ∈ result.coordinator.registry.entries)
    (hready : e.phase = .ready) : e.endpoint.isSome := by
  have w := h.wellFormed
  obtain ⟨x, hx, hev, hwas⟩ := h.ready_origin hbefore hf he hready
  rw [hf.registry] at he
  refine w.endpoint_after hx he hev.attempt ?_
  rcases hwas with hold | ⟨n, endpoint, answer, hb, ha⟩
  · exact h.ready_endpoint x hx hold
  · obtain ⟨y, hy, _, hep, _⟩ := h.hasEntry_before hbefore n _ hb rfl
    obtain rfl := w.eq_of_attempt? hy hx ha.symm
    rw [hep]
    rfl

theorem take : (b.take t before reply calls result).Consistent where
  wellFormed := hf.registry ▸ h.wellFormed.after calls
  tasks_distinct := by
    unfold Broadcast.take
    split
    · exact Table.distinct_put h.tasks_distinct _ _
    · exact Table.distinct_erase h.tasks_distinct _
  task_lt t' task htask := by
    rw [get?_take] at htask
    change t'.number < max b.nextTask (t.number + 1)
    split at htask
    · rename_i heq
      rw [← heq]
      omega
    · have hlt := h.task_lt t' task htask
      omega
  hasEntry t' n stage hleads := by
    by_cases hne : t = t'
    · subst hne
      obtain ⟨hafter, hlive⟩ := leads_take_self.mp hleads
      exact h.hasEntry_self hbefore hf hafter hlive
    · exact h.keeps_others hbefore hf hne ((leads_take_of_ne hne).mp hleads)
  one_leader t₁ t₂ n₁ n₂ stage₁ stage₂ h₁ h₂ ha := by
    by_cases hne₁ : t = t₁ <;> by_cases hne₂ : t = t₂
    · exact hne₁.symm.trans hne₂
    · subst hne₁
      obtain ⟨hafter, hlive⟩ := leads_take_self.mp h₁
      exact absurd ha (h.attempt_ne hbefore hf hne₂ hafter hlive ((leads_take_of_ne hne₂).mp h₂))
    · subst hne₂
      obtain ⟨hafter, hlive⟩ := leads_take_self.mp h₂
      exact absurd ha.symm
        (h.attempt_ne hbefore hf hne₁ hafter hlive ((leads_take_of_ne hne₁).mp h₁))
    · exact h.one_leader t₁ t₂ n₁ n₂ stage₁ stage₂ ((leads_take_of_ne hne₁).mp h₁)
        ((leads_take_of_ne hne₂).mp h₂) ha
  pending_led e he hp := h.pending_led_take hbefore hf he hp
  ready_endpoint e he hready := h.ready_endpoint_take hbefore hf he hready

end Consistent

theorem Consistent.get?_nextTask (h : b.Consistent) : b.tasks.get? ⟨b.nextTask⟩ = none := by
  rw [Option.eq_none_iff_forall_ne_some]
  intro task ht
  exact Nat.lt_irrefl _ (h.task_lt _ _ ht)

theorem fresh_of_admits {log : List Event} {task : Task} {call : EngineCall SessionId} {reply : Reply}
    (hcall : task.call? = some call) (hadmits : admits log call reply) :
    ∀ o ∈ brought (some task) (some reply), o.2 ∉ (made log).map Prod.snd := by
  intro o ho
  cases reply with
  | error => cases ho
  | ok name =>
    obtain ⟨kind, hkind, rfl⟩ := Option.map_eq_some_iff.mp (Option.mem_toList.mp ho)
    rw [hcall, Option.bind_some] at hkind
    exact hadmits (by rw [hkind]; rfl)

/-- What an action takes: a task from what it was to what is left of it. -/
structure Taken (b : Broadcast) (a : Action) (t : TaskId) (before : Option Task)
    (reply : Option Reply) (calls : List Registry.Call) (result : StepResult) : Prop where
  task : b.tasks.get? t = before
  follows : Follows b.coordinator before reply calls result
  fresh : ∀ o ∈ brought before reply, o.2 ∉ (made b.log).map Prod.snd
  request : before = none → ∃ q, a = .request q ∧ calls = requestCalls b.coordinator q
  /-- A task that waits for a reply was given one. -/
  replied : ∀ task, before = some task → task.call?.isSome → reply.isSome

theorem Step.taken {b' : Broadcast} {a : Action} (h : b.Consistent) (hs : Step b a b') :
    ∃ t before reply calls result, Taken b a t before reply calls result ∧
      b' = b.take t before reply calls result := by
  have hnone : ∀ before, ∀ o ∈ brought before none, o.2 ∉ (made b.log).map Prod.snd := by
    intro before o ho
    cases before <;> cases ho
  cases hs with
  | request hf =>
    exact ⟨_, _, _, _, _, ⟨h.get?_nextTask, hf, hnone _, fun _ => ⟨_, rfl, rfl⟩,
      fun _ h => (by cases h)⟩, rfl⟩
  | turn ht hcall hf =>
    refine ⟨_, _, _, _, _, ⟨ht, hf, hnone _, fun h => (by cases h), ?_⟩, rfl⟩
    intro task heq hsome
    cases heq
    rw [hcall] at hsome
    cases hsome
  | reply ht hcall hadmits hf =>
    exact ⟨_, _, _, _, _, ⟨ht, hf, fresh_of_admits hcall hadmits, fun h => (by cases h),
      fun _ _ _ => rfl⟩, rfl⟩

theorem Consistent.step {b' : Broadcast} {a : Action} (h : b.Consistent) (hs : Step b a b') :
    b'.Consistent := by
  obtain ⟨t, before, reply, calls, result, ht, rfl⟩ := hs.taken h
  exact h.take ht.task ht.follows

end Tasks

/-- What holds at the beginning and is kept by every step holds after every run. -/
theorem run_induction {P : Broadcast → Prop} (hstart : P {})
    (hstep : ∀ b a b', P b → Step b a b' → P b') (actions : List Action) : P (run {} actions) := by
  induction actions using List.reverseRecOn with
  | nil => exact hstart
  | append_singleton actions a ih =>
    rw [run_append]
    unfold step
    cases h : step? (run {} actions) a with
    | none => exact ih
    | some b' => exact hstep _ a b' ih (step?_spec h)

theorem consistent (actions : List Action) : (run {} actions).Consistent :=
  run_induction consistent_empty (fun _ _ _ h hs => h.step hs) actions

end Broadcast

end Rostrum
