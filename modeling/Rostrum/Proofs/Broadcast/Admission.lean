import Rostrum.Proofs.Broadcast.Outcome
import Rostrum.Proofs.Broadcast.SharedMix
import Rostrum.Proofs.Broadcast.Roles
import Rostrum.Proofs.Broadcast.Teardowns

/-!
# The admission of a session

A session that asks for a role is entered in the registry or refused, and that at once. Main statement:
it is refused if it holds a role, and otherwise if it wants to view while no mix is published; then
nothing but the count of rejections changes and the session is told once. A session that is entered gets
a new entry under a number that no attempt had before, and its stopped predecessor is kept as it was.
-/

namespace Rostrum

namespace Registry

/-- What an admission makes of the registry. -/
structure Entered (r : Registry) (s : SessionId) (role : Role) (a : Attempt) (r' : Registry) :
    Prop where
  attempt : a.number = r.lastAttempt + 1
  lastAttempt : r'.lastAttempt = a.number
  entry : r'.entry? s = some { attempt := a, role := role }
  others : ∀ s', s ≠ s' → r'.entry? s' = r.entry? s'
  buffer : r'.buffer = r.buffer
  predecessor : ∀ e, r.entry? s = some e → e.stopped
  /-- The predecessor is kept as it was, beside the entries that were kept already. -/
  superseded : ∀ a', r'.superseded.get? a' =
    ((r.entry? s).filter fun e => e.attempt = a').or (r.superseded.get? a')

section Entered
variable {r : Registry} {s : SessionId}

theorem WellFormed.entered (w : r.WellFormed) (hfree : ∀ e, r.entry? s = some e → e.stopped)
    (role : Role) :
    ∃ a r', r.register s role = .ok (a, r') ∧ r.Entered s role a r' := by
  rcases r.register_cases s role with ⟨e, he, hs, _⟩ | ⟨hnone, hr⟩ | ⟨e, he, hs, hr⟩
  · exact absurd (hfree e he) hs
  · refine ⟨⟨r.lastAttempt + 1⟩, (r.addAttempt s role).2, hr, rfl, addAttempt_lastAttempt .., ?_, ?_,
      addAttempt_buffer .., hfree, ?_⟩
    · rw [entry?_addAttempt hnone, if_pos rfl]
      rfl
    · intro s' hne
      rw [entry?_addAttempt hnone, if_neg hne]
    · intro a'
      rw [addAttempt_superseded, hnone]
      rfl
  · have hfree' := w.entry?_supersede_self he
    have hlast := supersede_lastAttempt r s e
    refine ⟨⟨(r.supersede s e).lastAttempt + 1⟩, ((r.supersede s e).addAttempt s role).2, hr,
      congrArg (· + 1) hlast, addAttempt_lastAttempt .., ?_, ?_, ?_, hfree, ?_⟩
    · rw [entry?_addAttempt hfree', if_pos rfl]
      rfl
    · intro s' hne
      rw [entry?_addAttempt hfree', if_neg hne, w.entry?_supersede he, if_neg hne]
    · rw [addAttempt_buffer, supersede_buffer]
    · intro a'
      rw [addAttempt_superseded, Registry.supersede, Table.get?_put, dropEntry_superseded, he]
      by_cases ha : e.attempt = a' <;> simp [Option.filter_some, ha]

end Entered

end Registry

namespace Coordinator

/-- Why a session does not get the role it asks for: the role it holds comes first. -/
inductive Refuses (c : Coordinator) (s : SessionId) (role : Role) : NegotiationFault → Prop where
  | holdsRole (e : Entry) : c.registry.entry? s = some e → ¬ e.stopped →
      Refuses c s role (.roleTaken e.role)
  | nothingPresented : (∀ e, c.registry.entry? s = some e → e.stopped) → role = .viewer →
      c.mix.published = none → Refuses c s role .noPresenter

theorem Refuses.unique {c : Coordinator} {s : SessionId} {role : Role} {fault fault' : NegotiationFault}
    (h : c.Refuses s role fault) (h' : c.Refuses s role fault') : fault = fault' := by
  cases h with
  | holdsRole e he hs =>
    cases h' with
    | holdsRole e' he' => rw [Option.some.inj (he.symm.trans he')]
    | nothingPresented hfree => exact absurd (hfree e he) hs
  | nothingPresented hfree =>
    cases h' with
    | holdsRole e he hs => exact absurd (hfree e he) hs
    | nothingPresented => rfl

/-- The coordinator after a request for a role that it refused. -/
def refused (c : Coordinator) (role : Role) : Coordinator :=
  { c with metrics := c.metrics.countNegotiation (labels role .rejected) }

/-- The mix that a negotiation begins with. -/
def shown (c : Coordinator) : Role → Option SharedMix
  | .presenter => none
  | .viewer => c.mix.published

variable {c : Coordinator} {s : SessionId} {role : Role}

theorem prepare_of_reserve_error {fault : NegotiationFault} {offer : String}
    (h : c.reserve s role offer = .error fault) (hfault : fault.isReported) :
    c.prepare s role offer = (.error fault, [⟨s, .rejected role fault.message⟩], c.refused role) := by
  simp only [prepare, h, reject, hfault, if_true]
  rfl

/-- A request for a role is refused for one reason, or the session is entered. -/
theorem prepare_cases (w : c.registry.WellFormed) (s : SessionId) (role : Role) (offer : String) :
    (∃ fault, c.Refuses s role fault ∧
      c.prepare s role offer = (.error fault, [⟨s, .rejected role fault.message⟩], c.refused role)) ∨
    (∃ a r', (∀ fault, ¬ c.Refuses s role fault) ∧ c.registry.Entered s role a r' ∧
      c.prepare s role offer =
        (.ok ⟨s, a, role, offer, c.shown role⟩, [], { c with registry := r' })) := by
  cases hactive : c.registry.activeRole? s with
  | some held =>
    obtain ⟨e, he, hs, rfl⟩ := Registry.activeRole?_eq_some_iff.mp hactive
    exact Or.inl ⟨_, .holdsRole e he hs, prepare_of_active hactive role offer⟩
  | none =>
    have hfree := Registry.activeRole?_eq_none_iff.mp hactive
    obtain ⟨a, r', hr, hentered⟩ := w.entered hfree role
    have henters : ∀ shown, c.snapshot s role = .ok shown →
        c.prepare s role offer = (.ok ⟨s, a, role, offer, shown⟩, [], { c with registry := r' }) := by
      intro shown hshown
      simp only [prepare, reserve, hshown, hr]
      rfl
    cases role with
    | presenter =>
      refine Or.inr ⟨a, r', ?_, hentered, henters _ rfl⟩
      rintro _ (⟨e, he, hs⟩ | ⟨_, hviews, _⟩)
      · exact hs (hfree e he)
      · cases hviews
    | viewer =>
      cases hp : c.mix.published with
      | none =>
        refine Or.inl ⟨_, .nothingPresented hfree rfl hp, prepare_of_reserve_error ?_ rfl⟩
        simp only [reserve, snapshot, hactive, hp]
        rfl
      | some mix =>
        refine Or.inr ⟨a, r', ?_, hentered, ?_⟩
        · rintro _ (⟨e, he, hs⟩ | ⟨_, _, hnone⟩)
          · exact hs (hfree e he)
          · rw [hp] at hnone
            cases hnone
        · rw [shown, hp]
          exact henters _ (by simp only [snapshot, hactive, hp])

end Coordinator

namespace Broadcast

/-- While somebody makes the mix or takes it down, none is published. -/
theorem Locked.unpublished {b : Broadcast} (hl : b.Locked) {t : TaskId} {u : MixUse}
    (hu : b.use? t = some u) (hwaits : u.waits = false) : b.coordinator.mix.published = none :=
  hl.agree.symm.trans (hl.inside t u hu hwaits).2

theorem step_prepare (b : Broadcast) (s : SessionId) (role : Role) (offer : String) :
    b.step (.request (.prepare s role offer)) =
      b.take ⟨b.nextTask⟩ none none (requestCalls b.coordinator (.prepare s role offer))
        (serve b.coordinator ⟨b.nextTask⟩ (.prepare s role offer)) := rfl

/-- A request that is refused leaves no task behind and issues no call. -/
theorem step_of_refused {b : Broadcast} (h : b.Consistent) {s : SessionId} {role : Role}
    {offer : String} {fault : NegotiationFault} {notices : List Notice} {c' : Coordinator}
    (hr : b.coordinator.prepare s role offer = (.error fault, notices, c')) :
    let b' := b.step (.request (.prepare s role offer))
    b'.coordinator = c' ∧ b'.tasks = b.tasks ∧
      ∃ more, b'.log = b.log ++ more ∧ ∀ t task, .issued t task ∉ more := by
  have hserve : serve b.coordinator ⟨b.nextTask⟩ (.prepare s role offer) =
      ⟨c', notices, .done (.negotiated (.error fault))⟩ := by
    simp only [serve, hr]
  simp only [step_prepare, hserve]
  refine ⟨rfl, Table.erase_of_get?_eq_none h.get?_nextTask, _, log_take .., ?_⟩
  intro t task hm
  simp [takeEvents, repliedEvents, issuedEvents, Progress.ongoing?] at hm

/--
Whatever happened before, a session that asks for a role is refused exactly if it has an entry that was
not stopped, or else if it wants to view while no mix is published. While a mix is made or taken down
none is published, and none that is published was ever released. A refusal is told to the session once
and counted once, and changes nothing else: not the registry, not the mix, and no call is issued. A
session that is admitted has a new entry with a number that was never given out.
-/
theorem refused_request_changes_nothing (actions : List Action) (s : SessionId) (role : Role)
    (offer : String) :
    let b := run {} actions
    let c := b.coordinator
    let b' := b.step (.request (.prepare s role offer))
    (∀ fault, (c.prepare s role offer).1 = .error fault ↔ c.Refuses s role fault) ∧
    (∀ t u, b.use? t = some u → u.waits = false → c.mix.published = none) ∧
    (∀ mix, c.mix.published = some mix →
      mix.pipeline.id ∉ releases b.log ∧ mix.mixer.id ∉ releases b.log) ∧
    (∀ fault, (c.prepare s role offer).1 = .error fault →
      (c.prepare s role offer).2 = ([⟨s, .rejected role fault.message⟩], c.refused role) ∧
      (∀ role' verdict, (c.refused role).counted role' verdict =
        c.counted role' verdict + if role' = role ∧ verdict = .rejected then 1 else 0) ∧
      b'.coordinator = c.refused role ∧ b'.tasks = b.tasks ∧
      ∃ more, b'.log = b.log ++ more ∧ ∀ t task, .issued t task ∉ more) ∧
    (∀ n, (c.prepare s role offer).1 = .ok n → ∃ r',
      (c.prepare s role offer).2 = ([], { c with registry := r' }) ∧
      n = ⟨s, n.attempt, role, offer, c.shown role⟩ ∧ c.registry.Entered s role n.attempt r' ∧
      (∀ e ∈ c.registry.entries, e.attempt ≠ n.attempt) ∧
      ∀ s', (s', n.attempt) ∉ Registry.issued (deeds b.log)) := by
  intro b c b'
  have h : b.Consistent := consistent actions
  have hl : b.Locked := locked actions
  have hlives : ∀ mix, c.mix.published = some mix →
      mix.pipeline.id ∉ releases b.log ∧ mix.mixer.id ∉ releases b.log :=
    fun mix => (accounts actions).published_unreleased (ledger actions)
  refine ⟨?_, fun t u => hl.unpublished, hlives, ?_, ?_⟩
  · intro fault
    rcases Coordinator.prepare_cases h.wellFormed s role offer with ⟨f, hf, hr⟩ | ⟨a, r', hno, _, hr⟩
    · rw [hr]
      constructor
      · rintro ⟨⟩
        exact hf
      · intro hf'
        rw [hf.unique hf']
    · rw [hr]
      exact iff_of_false (fun heq => by cases heq) (hno fault)
  · intro fault hfault
    rcases Coordinator.prepare_cases h.wellFormed s role offer with ⟨f, hf, hr⟩ | ⟨a, r', hno, _, hr⟩
    · have hr' := hr
      rw [hr] at hfault ⊢
      cases hfault
      exact ⟨rfl, Coordinator.counted_of_count rfl, step_of_refused h hr'⟩
    · rw [hr] at hfault
      cases hfault
  · intro n hn
    rcases Coordinator.prepare_cases h.wellFormed s role offer with ⟨f, hf, hr⟩ | ⟨a, r', _, hentered, hr⟩
    · rw [hr] at hn
      cases hn
    · rw [hr] at hn ⊢
      cases hn
      refine ⟨r', rfl, rfl, hentered, ?_, ?_⟩
      · rintro e he rfl
        have hle := h.wellFormed.attempt_le e he
        rw [hentered.attempt] at hle
        exact Nat.not_succ_le_self _ hle
      · intro s' hissued
        have hle := (accounted actions).issued_le s' a hissued
        rw [hentered.attempt] at hle
        exact Nat.not_succ_le_self _ hle

end Broadcast

end Rostrum
