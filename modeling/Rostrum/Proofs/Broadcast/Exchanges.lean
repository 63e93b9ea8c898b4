import Rostrum.Proofs.Broadcast.Outcome
import Rostrum.Proofs.Broadcast.SharedMix

/-!
# What passes between a negotiation and the engine

A task has one call to the engine at a time, so what it calls and what it is answered is one list of
exchanges. While a negotiation goes on, its entry holds just what its own exchanges have made. What holds
of the steps of every negotiation, under way or ended, is proved by `negotiations_induction`.
-/

namespace Rostrum

/-- A call to the engine with the reply to it. -/
structure Exchange where
  call : EngineCall SessionId
  reply : Reply

namespace Exchange

def of? : Option (EngineCall SessionId) → Option Reply → Option Exchange
  | some call, some reply => some ⟨call, reply⟩
  | _, _ => none

def succeeded (x : Exchange) : Bool := x.reply.isOk

/-- The object of a kind that an exchange brings. -/
def made? (kind : ObjectKind) (x : Exchange) : Option ObjectId :=
  match x.reply with
  | .ok name => if x.call.creates? = some kind then some ⟨name⟩ else none
  | .error _ => none

/-- The objects of a kind that some exchanges bring. -/
def made (kind : ObjectKind) (xs : List Exchange) : List ObjectId := xs.filterMap (made? kind)

theorem made_append (kind : ObjectKind) (xs ys : List Exchange) :
    made kind (xs ++ ys) = made kind xs ++ made kind ys :=
  List.filterMap_append

theorem made?_of_creates_ne {kind : ObjectKind} {x : Exchange} (h : x.call.creates? ≠ some kind) :
    x.made? kind = none := by
  unfold made?
  split
  · exact if_neg h
  · rfl

theorem made_eq_nil {kind : ObjectKind} {xs : List Exchange}
    (h : ∀ x ∈ xs, x.call.creates? ≠ some kind) : made kind xs = [] :=
  List.filterMap_eq_nil_iff.mpr fun x hx => made?_of_creates_ne (h x hx)

end Exchange

namespace Broadcast

/-! ## Exchanges and calls -/

/-- What a step answers to the call its task was waiting for. -/
def Episode.exchange? (x : Episode) : Option Exchange :=
  Exchange.of? (x.was.bind Task.call?) x.action.reply?

def exchanges (steps : List Episode) : List Exchange := steps.filterMap Episode.exchange?

/-- The calls that some steps issue. -/
def issuedBy (steps : List Episode) : List (EngineCall SessionId) := steps.filterMap Episode.issues?

section Views
variable (steps : List Episode) (x : Episode)

theorem exchanges_append : exchanges (steps ++ [x]) = exchanges steps ++ x.exchange?.toList := by
  rw [exchanges, List.filterMap_append, exchanges]
  cases h : x.exchange? <;> simp [h]

theorem issuedBy_append : issuedBy (steps ++ [x]) = issuedBy steps ++ x.issues?.toList := by
  rw [issuedBy, List.filterMap_append, issuedBy]
  cases h : x.issues? <;> simp [h]

variable {x}

/-- A task that waits for a reply takes its next step with the reply. -/
theorem Episode.Occurs.exchange_call (hx : x.Occurs) :
    x.exchange?.toList.map Exchange.call = (x.was.bind Task.call?).toList := by
  cases hx with
  | request => rfl
  | turn _ hturn =>
    have hcall := call?_of_hasTurn hturn
    simp [exchange?, hcall, Exchange.of?]
  | reply _ hcall => simp [exchange?, hcall, Exchange.of?, Action.reply?]

end Views

/-! ## The steps of a negotiation -/

section Induction
variable {P : List Episode → Broadcast → Negotiation → Progress Task Ending → Prop}
  (begins : ∀ (x : Episode) (n : Negotiation), x.Occurs → x.before.Consistent → x.was = none →
    x.left = some (.negotiation n .prepared) → P [x] x.after n (.ongoing (.negotiation n .prepared)))
  (own : ∀ (steps : List Episode) (x : Episode) (n : Negotiation) (stage : NegotiationStage),
    (∃ earlier, x.before = run {} earlier) → x.Occurs → x.was = some (.negotiation n stage) →
    P steps x.before n (.ongoing (.negotiation n stage)) → P (steps ++ [x]) x.after n x.result.task)
  (others : ∀ (steps : List Episode) (x : Episode) (t : TaskId) (n : Negotiation)
    (stage : NegotiationStage), x.Occurs → x.before.Consistent → x.task ≠ t →
    x.before.tasks.get? t = some (.negotiation n stage) →
    P steps x.before n (.ongoing (.negotiation n stage)) →
    P steps x.after n (.ongoing (.negotiation n stage)))
include begins own others

/--
What holds of a negotiation that begins, and is kept by its own steps and by those of all other tasks,
holds of all its steps as long as it goes on and when it ends.
-/
theorem negotiations_induction (actions : List Action) :
    (∀ t n stage, (run {} actions).tasks.get? t = some (.negotiation n stage) →
      P (stepsOf (history {} actions) t) (run {} actions) n (.ongoing (.negotiation n stage))) ∧
    ∀ x ∈ history {} actions, ∀ n stage ending, x.was = some (.negotiation n stage) →
      x.result.task = .done ending →
      P (stepsOf (history {} actions) x.task) x.after n (.done ending) := by
  -- The chronicle keeps the steps of a task apart: a task that has ended takes no step any more, and
  -- one that begins has taken none.
  refine (later_induction [] (P := fun past b => Chronicle past b ∧
    (∀ t n stage, b.tasks.get? t = some (.negotiation n stage) →
      P (stepsOf past t) b n (.ongoing (.negotiation n stage))) ∧
    ∀ x ∈ past, ∀ n stage ending, x.was = some (.negotiation n stage) →
      x.result.task = .done ending → P (stepsOf past x.task) x.after n (.done ending))
    ⟨chronicle_empty, fun _ _ _ h => (by cases h), fun _ h => by cases h⟩ ?_).2
  rintro past x ⟨hchronicle, hled, hended⟩ ⟨earlier, hbefore⟩ hx _
  have h : x.before.Consistent := hbefore ▸ consistent earlier
  have htask := (hx.taken h).task
  refine ⟨hchronicle.step h hx, fun t n stage ht => ?_, fun y hy n stage ending hwas hdone => ?_⟩
  · rw [x.get?_after] at ht
    rw [stepsOf_append]
    by_cases hne : x.task = t
    · subst hne
      rw [if_pos rfl] at ht ⊢
      cases hwas : x.was with
      | none =>
        rw [hchronicle.unused _ (by rw [hx.begins hwas])]
        have hbegun : stage = .prepared := by
          have hreq := hx
          cases hreq with
          | turn | reply => cases hwas
          | request => cases serve_begins ht with | prepare => rfl
        subst hbegun
        exact begins x n hx h hwas ht
      | some task =>
        have hresult : x.result.task = .ongoing (.negotiation n stage) := by
          unfold Episode.left at ht
          cases hr : x.result.task with
          | ongoing task =>
            rw [hr] at ht
            exact congrArg Progress.ongoing (Option.some.inj ht)
          | done =>
            rw [hr] at ht
            cases ht
        cases hx.continues h hwas ht with
        | negotiation =>
          rw [← hresult]
          exact own _ x n _ ⟨earlier, hbefore⟩ hx hwas (hled _ _ _ (htask.trans hwas))
    · rw [if_neg hne] at ht ⊢
      exact others _ x t n stage hx h hne ht (hled t n stage ht)
  · rcases List.mem_append.mp hy with hy | hy
    · obtain ⟨hlt, hnone, _⟩ := hchronicle.ended y hy n stage ending hwas hdone
      rw [stepsOf_append, if_neg (hx.ne_of_ended h hnone hlt)]
      exact hended y hy n stage ending hwas hdone
    · obtain rfl := List.mem_singleton.mp hy
      rw [stepsOf_append, if_pos rfl, ← hdone]
      exact own _ y n stage ⟨earlier, hbefore⟩ hx hwas (hled _ _ _ (htask.trans hwas))

end Induction

/-! ## What an entry holds -/

/-- An entry holds just what some exchanges have made. -/
structure Carries (e : Entry) (xs : List Exchange) : Prop where
  endpoint : (e.endpoint.map Handle.id).toList = Exchange.made .endpoint xs
  port : (e.port.map Handle.id).toList = Exchange.made .port xs

theorem Carries.objects {e : Entry} {xs : List Exchange} (h : Carries e xs) :
    e.objects = Exchange.made .port xs ++ Exchange.made .endpoint xs := by
  rw [Entry.objects, h.endpoint, h.port]

section Carries
variable {r : Registry} (w : r.WellFormed) {s : SessionId} {a : Attempt} {e e' : Entry}
  {xs : List Exchange} {x? : Option Exchange}

theorem Carries.more (h : Carries e xs) (hep : e'.endpoint = e.endpoint) (hport : e'.port = e.port)
    (hno : ∀ x ∈ x?, x.made? .endpoint = none ∧ x.made? .port = none) :
    Carries e' (xs ++ x?.toList) := by
  have hnone : ∀ kind, (∀ x ∈ x?, x.made? kind = none) → Exchange.made kind x?.toList = [] :=
    fun kind h => List.filterMap_eq_nil_iff.mpr fun x hx => h x (Option.mem_toList.mp hx)
  constructor
  · rw [hep, h.endpoint, Exchange.made_append, hnone _ fun x hx => (hno x hx).1, List.append_nil]
  · rw [hport, h.port, Exchange.made_append, hnone _ fun x hx => (hno x hx).2, List.append_nil]

include w

theorem held_of_unstored {call : Registry.Call} (hstores : ¬ call.stores)
    (he : r.attempt? s a = some e) (he' : (r.next call).attempt? s a = some e') :
    e'.endpoint = e.endpoint ∧ e'.port = e.port := by
  obtain ⟨hm, ha⟩ := w.mem_of_attempt? he
  obtain ⟨hm', ha'⟩ := (w.next call).mem_of_attempt? he'
  rcases w.carried_next hm' with ⟨hnew, _⟩ | ⟨e₂, hm₂, ha₂, hep, hport⟩
  · have hle := w.attempt_le e hm
    rw [ha, ← ha', hnew] at hle
    exact (Nat.not_succ_le_self _ hle).elim
  · obtain rfl := w.eq_of_attempt? he hm₂ (ha₂.symm.trans ha')
    have hno : (Registry.Deed.mk r call).endpointFor e₂.attempt = none ∧
        (Registry.Deed.mk r call).portFor e₂.attempt = none := by
      cases call <;> first | exact ⟨rfl, rfl⟩ | exact absurd rfl hstores
    rw [hno.1] at hep
    rw [hno.2] at hport
    exact ⟨hep, hport⟩

omit w in
/-- A step that brings neither an endpoint nor a port has no exchange that makes one. -/
theorem made?_of_brought {task : Task} {reply : Option Reply}
    (hno : mediaOf (brought (some task) reply) = []) {kind : ObjectKind} (hkind : kind.isMedia) :
    ∀ x ∈ Exchange.of? task.call? reply, x.made? kind = none := by
  intro x hx
  rw [Option.eq_none_iff_forall_ne_some]
  intro id hid
  have hm : id ∈ mediaOf (brought (some task) reply) := by
    refine mem_mediaOf_iff.mpr ⟨kind, hkind, ?_⟩
    unfold Exchange.of? at hx
    split at hx
    · rename_i call reply hcall
      obtain rfl := Option.some.inj hx
      cases reply with
      | error => cases hid
      | ok name =>
        obtain ⟨hcreates, hname⟩ := Option.ite_none_right_eq_some.mp hid
        obtain rfl := Option.some.inj hname
        simp only at hcreates
        simp [brought, madeBy, hcall, hcreates]
    · cases hx
  rw [hno] at hm
  cases hm

/-- What a negotiation is given in a step is in its entry before it goes on or gives up. -/
theorem Carries.asks {n : Negotiation} {stage : NegotiationStage} {reply : Option Reply}
    (h : Carries e xs) (he : r.attempt? n.session n.attempt = some e) (hfits : stage.Fits e)
    (he' : (r.after (stage.asks n reply).toList).attempt? n.session n.attempt = some e') :
    Carries e' (xs ++ (Exchange.of? (stage.call? n) reply).toList) := by
  rcases asks_cases n stage reply with ⟨mix, id, rfl, rfl⟩ | ⟨mix, endpoint, id, rfl, rfl⟩ | ⟨hno, hmade⟩
  · obtain rfl := Option.some.inj ((w.attempt?_setEndpoint he ⟨⟨id⟩⟩).symm.trans he')
    have hbare : Exchange.made .endpoint xs = [] := by rw [← h.endpoint, hfits.1]; rfl
    constructor
    · rw [Exchange.made_append, hbare]
      rfl
    · rw [Exchange.made_append, ← h.port]
      exact (List.append_nil _).symm
  · obtain rfl := Option.some.inj ((w.attempt?_setPort he ⟨⟨id⟩⟩).symm.trans he')
    have hbare : Exchange.made .port xs = [] := by rw [← h.port, hfits.2.1]; rfl
    constructor
    · rw [Exchange.made_append, ← h.endpoint]
      exact (List.append_nil _).symm
    · rw [Exchange.made_append, hbare]
      rfl
  · have hheld : e'.endpoint = e.endpoint ∧ e'.port = e.port := by
      cases hask : stage.asks n reply with
      | none =>
        rw [hask] at he'
        cases he.symm.trans he'
        exact ⟨rfl, rfl⟩
      | some call =>
        rw [hask] at he'
        exact held_of_unstored w (hno call hask) he he'
    have hnone := @made?_of_brought (.negotiation n stage) reply hmade
    exact h.more hheld.1 hheld.2 fun x hx => ⟨hnone rfl x hx, hnone rfl x hx⟩

end Carries

/-- The entry of a negotiation that is under way holds what the negotiation has made. -/
def Equips (r : Registry) (n : Negotiation) (xs : List Exchange) : Prop :=
  ∀ e, r.attempt? n.session n.attempt = some e → Carries e xs

theorem Equips.keeps {x : Episode} (hx : x.Occurs) (h : x.before.Consistent)
    {t : TaskId} (hne : x.task ≠ t) {n : Negotiation} {stage : NegotiationStage}
    (hleads : x.before.Leads t n stage) {xs : List Exchange}
    (hequips : Equips x.before.coordinator.registry n xs) :
    Equips x.after.coordinator.registry n xs := by
  obtain ⟨e, he, hp, _⟩ := h.hasEntry t n stage hleads
  have hcarries := hequips e he
  have htaken := hx.taken h
  have hcalls : ∀ call ∈ x.calls, call.attempt? ≠ some n.attempt := by
    intro call hcall hnames
    obtain ⟨n', stage', hwas, hlive, ha⟩ := htaken.follows.move.names_own hcall hnames
    exact hne (h.one_leader x.task t n' n stage' stage ⟨htaken.task.trans hwas, hlive⟩ hleads ha)
  obtain ⟨e₁, he₁, hsame⟩ := h.wellFormed.keeps_after he hp hcalls
  intro e' he'
  rw [hx.registry_after h] at he'
  cases he₁.symm.trans he'
  rcases hsame with rfl | rfl
  · exact hcarries
  · exact ⟨hcarries.endpoint, hcarries.port⟩

end Broadcast

end Rostrum
