import Rostrum.Proofs.Broadcast.Negotiations
import Rostrum.Proofs.Broadcast.Objects

/-!
# The balance of one step

An endpoint or a mixer port that a step brings is stored in the entry of its negotiation. What is taken
out of the registry goes to the task that has to release it, which releases one object a step. So a
step neither loses an object nor has it twice.
-/

namespace Rostrum

def ObjectKind.isMedia : ObjectKind → Bool
  | .endpoint => true
  | .port => true
  | _ => false

namespace NegotiationStage

/-- Whether a negotiation has an endpoint or a port made for it. -/
def makes : NegotiationStage → Bool
  | .creatingEndpoint _ => true
  | .creatingPort _ _ => true
  | _ => false

theorem makes_of_seeksMix {stage : NegotiationStage} (h : stage.seeksMix) : stage.makes = false := by
  cases stage <;> first | rfl | cases h

theorem makes_of_drains {stage : NegotiationStage} {endpoint : Endpoint} (h : stage.Drains endpoint) :
    stage.makes = false := by
  cases h <;> rfl

theorem makes_of_drained {stage : NegotiationStage} {endpoint : Endpoint}
    (h : stage.Drained endpoint) : stage.makes = false := by
  cases h <;> rfl

end NegotiationStage

namespace Broadcast

/-- The endpoints and mixer ports among some objects. -/
def mediaOf (objects : List (ObjectKind × ObjectId)) : List ObjectId :=
  objects.filterMap fun o => if o.1.isMedia then some o.2 else none

/-- What a task releases later. -/
def restOf (task : Option Task) : List ObjectId :=
  ((task.bind Task.teardown?).map Teardown.rest).getD []

/-- What a task releases now. -/
def releasedBy (task : Option Task) : List ObjectId :=
  ((task.bind Task.teardown?).map Teardown.object).toList

/-- The objects a step brings, with the attempt that they are made for. -/
def madeForBy : Option Task → Option Reply → List (Attempt × ObjectKind × ObjectId)
  | some (.negotiation n stage), some reply =>
    (madeBy (.negotiation n stage) reply).toList.map fun o => (n.attempt, o)
  | _, _ => []

/-- Names of some objects are among the names of all. -/
theorem filterMap_sublist_map {α β : Type} {f : α → Option β} {g : α → β}
    (h : ∀ x y, f x = some y → g x = y) (xs : List α) : (xs.filterMap f).Sublist (xs.map g) := by
  induction xs with
  | nil => exact List.Sublist.slnil
  | cons x xs ih =>
    cases hx : f x with
    | none =>
      rw [List.filterMap_cons_none hx]
      exact ih.cons _
    | some y =>
      rw [List.filterMap_cons_some hx, List.map_cons, h x y hx]
      exact ih.cons_cons _

theorem mem_mediaOf_iff {objects : List (ObjectKind × ObjectId)} {id : ObjectId} :
    id ∈ mediaOf objects ↔ ∃ kind, kind.isMedia ∧ (kind, id) ∈ objects := by
  unfold mediaOf
  rw [List.mem_filterMap]
  constructor
  · rintro ⟨⟨kind, id'⟩, hm, h⟩
    by_cases hkind : kind.isMedia
    · simp only [hkind, if_true, Option.some.injEq] at h
      exact ⟨kind, hkind, h ▸ hm⟩
    · simp [hkind] at h
  · rintro ⟨kind, hkind, hm⟩
    exact ⟨(kind, id), hm, by simp [hkind]⟩

theorem mediaOf_append (objects more : List (ObjectKind × ObjectId)) :
    mediaOf (objects ++ more) = mediaOf objects ++ mediaOf more :=
  List.filterMap_append

theorem madeForBy_origin {before : Option Task} {reply : Option Reply} {a : Attempt}
    {o : ObjectKind × ObjectId} (h : (a, o) ∈ madeForBy before reply) :
    ∃ n stage, before = some (.negotiation n stage) ∧ n.attempt = a ∧ o ∈ brought before reply := by
  unfold madeForBy at h
  split at h
  · obtain ⟨o', ho', heq⟩ := List.mem_map.mp h
    obtain ⟨rfl, rfl⟩ := Prod.mk.inj heq
    exact ⟨_, _, rfl, rfl, ho'⟩
  · cases h

theorem not_madeForBy {before : Option Task} {reply : Option Reply}
    (h : mediaOf (brought before reply) = []) {a : Attempt} {kind : ObjectKind} {id : ObjectId}
    (hkind : kind.isMedia) : (a, kind, id) ∉ madeForBy before reply := by
  intro hm
  obtain ⟨_, _, _, _, ho⟩ := madeForBy_origin hm
  have hmedia : id ∈ mediaOf (brought before reply) := mem_mediaOf_iff.mpr ⟨kind, hkind, ho⟩
  rw [h] at hmedia
  cases hmedia

/-- Tasks that lead no negotiation bring no endpoint and no port. -/
theorem mediaOf_brought_of_not_live {before : Option Task} {reply : Option Reply}
    (h : ∀ task ∈ before, task.live? = none) : mediaOf (brought before reply) = [] := by
  unfold brought
  split
  · rename_i task reply
    have hno := h task rfl
    cases reply with
    | error => rfl
    | ok name =>
      cases task with
      | negotiation n stage =>
        cases stage <;> first | rfl | cases hno
      | shutdown stage =>
        cases stage with
        | stopping => rfl
        | withdrawing stage => cases stage <;> rfl
      | mixRequest stage => cases stage <;> rfl
      | mixWithdrawal stage => cases stage <;> rfl
      | _ => rfl
  · rfl

/-- What a negotiation stores in a step is what the step brings. -/
theorem asks_cases (n : Negotiation) (stage : NegotiationStage) (reply : Option Reply) :
    (∃ mix id, stage = .creatingEndpoint mix ∧ reply = some (.ok id)) ∨
    (∃ mix endpoint id, stage = .creatingPort mix endpoint ∧ reply = some (.ok id)) ∨
    (∀ call ∈ stage.asks n reply, ¬ call.stores) ∧
      mediaOf (brought (some (.negotiation n stage)) reply) = [] := by
  rcases reply with _ | _ | id
  · exact Or.inr (Or.inr ⟨by cases stage <;> simp [NegotiationStage.asks], rfl⟩)
  · exact Or.inr (Or.inr ⟨by cases stage <;> simp [NegotiationStage.asks], rfl⟩)
  · cases stage with
    | creatingEndpoint mix => exact Or.inl ⟨mix, id, rfl, rfl⟩
    | creatingPort mix endpoint => exact Or.inr (Or.inl ⟨mix, endpoint, id, rfl, rfl⟩)
    | obtainingMix request =>
      refine Or.inr (Or.inr ⟨by simp [NegotiationStage.asks], ?_⟩)
      cases request <;> rfl
    | connecting endpoint port =>
      refine Or.inr (Or.inr ⟨by simp [NegotiationStage.asks, Registry.Call.stores], ?_⟩)
      cases hrole : n.role <;> simp [brought, madeBy, Task.call?, NegotiationStage.call?, hrole,
        EngineCall.creates?, mediaOf]
    | _ => exact Or.inr (Or.inr ⟨by simp [NegotiationStage.asks, Registry.Call.stores], rfl⟩)

theorem Disposes.balance {d : Option Teardown} {es : List Entry} {after : Option Task}
    (h : Disposes d es after) :
    (d.map Teardown.rest).getD [] ++ es.flatMap Entry.objects = releasedBy after ++ restOf after := by
  have hrest : ∀ {d : Option Teardown}, (∀ x ∈ d, x.rest = []) → (d.map Teardown.rest).getD [] = [] := by
    intro d hd
    cases d with
    | none => rfl
    | some x => exact hd x rfl
  have hobjects : ∀ {es : List Entry}, (∀ x ∈ es, x.objects = []) → es.flatMap Entry.objects = [] :=
    fun hes => List.flatMap_eq_nil_iff.mpr hes
  cases h with
  | goesOn hd ht => simp [releasedBy, restOf, hd, ht]
  | begins hb hes ho ht => simp [releasedBy, restOf, hrest hb, hobjects hes, ho, ht]
  | ends hb hes hmix =>
    have hnone : after.bind Task.teardown? = none := by
      cases after with
      | none => rfl
      | some task =>
        have htask := hmix task rfl
        unfold Task.isMix at htask
        split at htask <;> first | rfl | cases htask
    simp [releasedBy, restOf, hrest hb, hobjects hes, hnone]

/-- What a task takes down it took down before, or it belongs to an entry that was handed out. -/
theorem Disposes.teardown_cases {d₀ : Option Teardown} {es : List Entry} {after : Option Task}
    (h : Disposes d₀ es after) {d : Teardown} (hd : after.bind Task.teardown? = some d) :
    (∃ x, d₀ = some x ∧ x.entry = d.entry ∧ x.rest = d.object :: d.rest) ∨
      d.entry ∈ es ∧ d.entry.objects = d.object :: d.rest := by
  cases h with
  | goesOn hrest ht =>
    rw [Option.bind_some, ht] at hd
    cases hd
    exact Or.inl ⟨_, rfl, rfl, hrest⟩
  | begins _ _ ho ht =>
    rw [Option.bind_some, ht] at hd
    cases hd
    exact Or.inr ⟨List.mem_append_right _ (List.mem_singleton_self _), ho⟩
  | ends _ _ hmix =>
    obtain ⟨task, rfl, ht⟩ := Option.bind_eq_some_iff.mp hd
    have htask := hmix task rfl
    unfold Task.isMix at htask
    split at htask <;> first | cases ht | cases htask

theorem Move.teardown_cases {r : Registry} {before after : Option Task} {reply : Option Reply}
    {calls : List Registry.Call} (m : Move r before reply calls after) {d : Teardown}
    (hd : after.bind Task.teardown? = some d) :
    (∃ x, before.bind Task.teardown? = some x ∧ x.entry = d.entry ∧ x.rest = d.object :: d.rest) ∨
      d.entry ∈ Registry.handedOut (r.log calls) ∧ d.entry.objects = d.object :: d.rest := by
  cases m with
  | disposes _ hdisposes => exact hdisposes.teardown_cases hd
  | givesUp _ _ hdisposes =>
    rcases hdisposes.teardown_cases hd with ⟨_, h, _⟩ | h
    · cases h
    · exact Or.inr h
  | goesOn _ hdrained => cases hdrained <;> cases hd
  | _ => cases hd

/-- An entry gains what a step brings for its attempt. -/
def Gains (before : Option Task) (reply : Option Reply) (e e' : Entry) : Prop :=
  e'.attempt = e.attempt ∧ ∀ kind id, kind.isMedia →
    (e'.Holds kind id ↔ e.Holds kind id ∨ (e.attempt, kind, id) ∈ madeForBy before reply)

section Gains
variable {before : Option Task} {reply : Option Reply} {e e' x : Entry}

theorem holds_of_cargo (h : e.cargo = e'.cargo) (kind : ObjectKind) (id : ObjectId) :
    e'.Holds kind id ↔ e.Holds kind id := by
  obtain ⟨_, hep, hport⟩ := Entry.cargo_eq_iff.mp h
  cases kind <;> simp [Entry.Holds, hep, hport]

theorem gains_of_cargo (hcargo : e.cargo = e'.cargo)
    (hno : ∀ kind id, kind.isMedia → (e.attempt, kind, id) ∉ madeForBy before reply) :
    Gains before reply e e' := by
  refine ⟨(Entry.cargo_eq_iff.mp hcargo).1.symm, fun kind id hkind => ?_⟩
  rw [holds_of_cargo hcargo]
  exact ⟨Or.inl, fun h => h.resolve_right (hno kind id hkind)⟩

theorem Gains.cargo (h : Gains before reply e x) (hcargo : x.cargo = e'.cargo) :
    Gains before reply e e' := by
  refine ⟨(Entry.cargo_eq_iff.mp hcargo).1.symm.trans h.1, fun kind id hkind => ?_⟩
  rw [holds_of_cargo hcargo]
  exact h.2 kind id hkind

end Gains

section Asks
variable {r : Registry} (w : r.WellFormed) {n : Negotiation} {stage : NegotiationStage}
  (h : HasEntry r n stage) (reply : Option Reply)
  (hask : ∀ call ∈ stage.asks n reply, call.stores ∨ r.next call = r)
include w h hask

/-- What a negotiation asks for stores what its step brings, in its own entry. -/
theorem asks_stored :
    (r.after (stage.asks n reply).toList = r ∧
      mediaOf (brought (some (.negotiation n stage)) reply) = []) ∨
    ∃ e e' rest, r.entries = e ::ₘ rest ∧
      (r.after (stage.asks n reply).toList).entries = e' ::ₘ rest ∧ e.attempt = n.attempt ∧
      Gains (some (.negotiation n stage)) reply e e' ∧
      (e'.objects : Multiset ObjectId) =
        e.objects + (mediaOf (brought (some (.negotiation n stage)) reply) : List ObjectId) := by
  rcases asks_cases n stage reply with
    ⟨mix, id, rfl, rfl⟩ | ⟨mix, endpoint, id, rfl, rfl⟩ | ⟨hno, hmedia⟩
  · obtain ⟨e, he, _, hep, hport, _⟩ := h
    have ha := (w.mem_of_attempt? he).2
    obtain ⟨rest, hold, hnew⟩ := w.entries_setEndpoint he ⟨⟨id⟩⟩
    refine Or.inr ⟨e, _, rest, hold, hnew, ha, ⟨rfl, fun kind id' hkind => ?_⟩, ?_⟩
    · cases kind <;> simp [madeForBy, madeBy, Task.call?, NegotiationStage.call?,
        EngineCall.creates?, Entry.Holds, hep, hport, ha, eq_comm]
    · simp only [Entry.objects, hep, hport]
      rfl
  · obtain ⟨e, he, _, hep, hport, _⟩ := h
    have ha := (w.mem_of_attempt? he).2
    obtain ⟨rest, hold, hnew⟩ := w.entries_setPort he ⟨⟨id⟩⟩
    refine Or.inr ⟨e, _, rest, hold, hnew, ha, ⟨rfl, fun kind id' hkind => ?_⟩, ?_⟩
    · cases kind <;> simp [madeForBy, madeBy, Task.call?, NegotiationStage.call?,
        EngineCall.creates?, Entry.Holds, hep, hport, ha, eq_comm]
    · simp only [Entry.objects, hep, hport]
      exact Multiset.coe_eq_coe.mpr (List.Perm.swap _ _ _)
  · refine Or.inl ⟨?_, hmedia⟩
    cases hcall : stage.asks n reply with
    | none => rfl
    | some call => exact (hask call hcall).resolve_left (hno call hcall)

theorem asks_balance :
    (r.after (stage.asks n reply).toList).objects =
      r.objects + (mediaOf (brought (some (.negotiation n stage)) reply) : List ObjectId) := by
  rcases asks_stored w h reply hask with ⟨hsame, hmedia⟩ | ⟨e, e', rest, hold, hnew, _, _, hobjects⟩
  · rw [hsame, hmedia]
    exact (add_zero _).symm
  · rw [Registry.objects, Registry.objects, hold, hnew, Multiset.cons_bind, Multiset.cons_bind,
      hobjects, add_right_comm]

theorem asks_gains {x : Entry} (hx : x ∈ (r.after (stage.asks n reply).toList).entries) :
    ∃ e ∈ r.entries, Gains (some (.negotiation n stage)) reply e x := by
  rcases asks_stored w h reply hask with ⟨hsame, hmedia⟩ | ⟨e, e', rest, hold, hnew, ha, hgains, _⟩
  · rw [hsame] at hx
    exact ⟨x, hx, gains_of_cargo rfl fun kind id hkind => not_madeForBy hmedia hkind⟩
  · rw [hnew] at hx
    rcases Multiset.mem_cons.mp hx with rfl | hx
    · exact ⟨e, hold ▸ Multiset.mem_cons_self e rest, hgains⟩
    · -- another entry is of another attempt, for which nothing was made
      have hne := w.attempt_ne_of_rest hold hx
      refine ⟨x, hold ▸ Multiset.mem_cons_of_mem hx, gains_of_cargo rfl ?_⟩
      intro kind id _ hm
      obtain ⟨n', stage', hb, ha', _⟩ := madeForBy_origin hm
      cases hb
      exact hne (ha'.symm.trans ha.symm)

end Asks

/-- A call that stores what was made, at the stage that asks for it, lets an entry gain just that. -/
theorem stored_gains {r : Registry} (w : r.WellFormed) {n : Negotiation} {stage : NegotiationStage}
    (h : HasEntry r n stage) {reply : Option Reply} {call : Registry.Call}
    (hask : stage.asks n reply = some call) (hstores : call.stores) {x : Entry}
    (hx : x ∈ (r.after [call]).entries ∨ x ∈ Registry.handedOut (r.log [call])) :
    ∃ e ∈ r.entries, Gains (some (.negotiation n stage)) reply e x := by
  rw [Registry.handedOut_log_singleton,
    Registry.Deed.handedOut_eq_nil (NegotiationStage.not_takes_of_asks hask)] at hx
  have hx' : x ∈ (r.after (stage.asks n reply).toList).entries := by
    rw [hask]
    exact hx.resolve_right List.not_mem_nil
  refine asks_gains w h reply ?_ hx'
  intro call' hcall
  cases hask.symm.trans hcall
  exact Or.inl hstores

/-- Of the stages of a negotiation only two bring an endpoint or a port. -/
theorem mediaOf_brought_of_not_makes {n : Negotiation} {stage : NegotiationStage}
    (h : stage.makes = false) (reply : Option Reply) :
    mediaOf (brought (some (.negotiation n stage)) reply) = [] := by
  rcases asks_cases n stage reply with ⟨_, _, rfl, _⟩ | ⟨_, _, _, rfl, _⟩ | ⟨_, h⟩
  · cases h
  · cases h
  · exact h

/-- A negotiation that was not given up has nothing to release. -/
theorem releases_nothing {n : Negotiation} {stage : NegotiationStage} (h : stage.isLive) :
    releasedBy (some (.negotiation n stage)) = [] ∧ restOf (some (.negotiation n stage)) = [] := by
  cases stage <;> first | exact ⟨rfl, rfl⟩ | cases h

section Quiet
variable {r : Registry} {before after : Option Task} {reply : Option Reply} {calls : List Registry.Call}

theorem balance_of_live (hnow : releasedBy after = []) (hlater : restOf after = [])
    (hrest : restOf before = [])
    (hstored : (r.after calls).objects = r.objects + (mediaOf (brought before reply) : List ObjectId)) :
    (r.after calls).objects + (releasedBy after ++ restOf after : List ObjectId) =
      r.objects + (restOf before : List ObjectId) +
        (mediaOf (brought before reply) : List ObjectId) := by
  rw [hstored, hnow, hlater, hrest, List.append_nil, Multiset.coe_nil, add_zero, add_zero]

theorem balance_of_quiet (hnow : releasedBy after = []) (hlater : restOf after = [])
    (hrest : restOf before = []) (hmedia : mediaOf (brought before reply) = [])
    (hsame : (r.after calls).objects = r.objects) :
    (r.after calls).objects + (releasedBy after ++ restOf after : List ObjectId) =
      r.objects + (restOf before : List ObjectId) +
        (mediaOf (brought before reply) : List ObjectId) := by
  refine balance_of_live hnow hlater hrest ?_
  rw [hsame, hmedia, Multiset.coe_nil, add_zero]

theorem gains_of_quiet (w : r.WellFormed) (hstores : ∀ call ∈ calls, ¬ call.stores)
    (hmedia : mediaOf (brought before reply) = []) {e' : Entry}
    (he' : e' ∈ (r.after calls).entries ∨ e' ∈ Registry.handedOut (r.log calls)) :
    (∃ e ∈ r.entries, Gains before reply e e') ∨
      r.lastAttempt < e'.attempt.number ∧ ∀ kind id, ¬ e'.Holds kind id := by
  rcases w.cargo_origin hstores he' with ⟨e, he, hcargo⟩ | ⟨s, hs, hep, hport⟩
  · exact Or.inl ⟨e, he, gains_of_cargo hcargo fun kind id hkind => not_madeForBy hmedia hkind⟩
  · refine Or.inr ⟨w.issued_new hs, fun kind id => ?_⟩
    cases kind <;> simp [Entry.Holds, hep, hport]

end Quiet

namespace Move
variable {r : Registry} {before after : Option Task} {reply : Option Reply}
  {calls : List Registry.Call} (m : Move r before reply calls after) (w : r.WellFormed)
  (hentry : ∀ n stage, before = some (.negotiation n stage) → stage.isLive → HasEntry r n stage)
include m w hentry

/-- What is stored, waits for its release or is released after a step was so before, or is new. -/
theorem balance :
    (r.after calls).objects + (releasedBy after ++ restOf after : List ObjectId) =
      r.objects + (restOf before : List ObjectId) +
        (mediaOf (brought before reply) : List ObjectId) := by
  cases m with
  | enters | refused | buffers | applies | completes =>
    exact balance_of_quiet rfl rfl rfl rfl
      (w.objects_next (by exact Bool.false_ne_true) (by exact Bool.false_ne_true))
  | @disposes before reply after sessions hno hd =>
    have hstores : ∀ call ∈ sessions.map Registry.Call.stop, ¬ call.stores := by
      simp [Registry.Call.stores]
    rw [mediaOf_brought_of_not_live hno, ← hd.balance, ← w.objects_after hstores, restOf,
      Multiset.coe_nil, add_zero, ← Multiset.coe_add, add_comm (Multiset.ofList (Option.getD _ [])),
      add_assoc]
  | waits hseeks | obtains hseeks =>
    exact balance_of_quiet rfl rfl (releases_nothing (NegotiationStage.isLive_of_seeksMix hseeks)).2
      (mediaOf_brought_of_not_makes (NegotiationStage.makes_of_seeksMix hseeks) _) rfl
  | goesOn hdrained hdrained' =>
    have hlive := NegotiationStage.isLive_of_drained hdrained
    have hlive' := NegotiationStage.isLive_of_drained hdrained'
    exact balance_of_quiet (releases_nothing hlive').1 (releases_nothing hlive').2
      (releases_nothing hlive).2
      (mediaOf_brought_of_not_makes (NegotiationStage.makes_of_drained hdrained) _) rfl
  | applying hdrains | drained hdrains =>
    exact balance_of_quiet rfl rfl (releases_nothing (NegotiationStage.isLive_of_drains hdrains)).2
      (mediaOf_brought_of_not_makes (NegotiationStage.makes_of_drains hdrains) _)
      (w.objects_next (by exact Bool.false_ne_true) (by exact Bool.false_ne_true))
  | @endpointMade n mix id =>
    refine balance_of_live rfl rfl rfl ?_
    exact asks_balance w (hentry n _ rfl rfl) (some (.ok id)) fun call hcall =>
      Or.inl (by cases hcall; rfl)
  | @portMade n mix endpoint id =>
    refine balance_of_live rfl rfl rfl ?_
    exact asks_balance w (hentry n _ rfl rfl) (some (.ok id)) fun call hcall =>
      Or.inl (by cases hcall; rfl)
  | @givesUp n stage reply after hlive hask hd =>
    have hasks := asks_balance w (hentry _ _ rfl hlive) reply hask
    have hstores : ∀ call ∈ [Registry.Call.remove n.session n.attempt], ¬ call.stores := by
      simp [Registry.Call.stores]
    have hremove := (w.after (stage.asks n reply).toList).objects_after hstores
    rw [hasks, Registry.handedOut_log_singleton] at hremove
    rw [← hd.balance, Registry.after_append, (releases_nothing hlive).2,
      NegotiationStage.handedOut_asks, Multiset.coe_nil, add_zero]
    exact hremove

/-- An entry that is stored after a step or was handed out by it gained what the step brought, or is new. -/
theorem gains {e' : Entry}
    (he' : e' ∈ (r.after calls).entries ∨ e' ∈ Registry.handedOut (r.log calls)) :
    (∃ e ∈ r.entries, Gains before reply e e') ∨
      r.lastAttempt < e'.attempt.number ∧ ∀ kind id, ¬ e'.Holds kind id := by
  cases m with
  | enters | refused | buffers | applies | completes =>
    exact gains_of_quiet w (by simp [Registry.Call.stores]) rfl he'
  | disposes hno =>
    exact gains_of_quiet w (by simp [Registry.Call.stores]) (mediaOf_brought_of_not_live hno) he'
  | waits hseeks | obtains hseeks =>
    exact gains_of_quiet w (by simp)
      (mediaOf_brought_of_not_makes (NegotiationStage.makes_of_seeksMix hseeks) _) he'
  | goesOn hdrained =>
    exact gains_of_quiet w (by simp)
      (mediaOf_brought_of_not_makes (NegotiationStage.makes_of_drained hdrained) _) he'
  | applying hdrains | drained hdrains =>
    exact gains_of_quiet w (by simp [Registry.Call.stores])
      (mediaOf_brought_of_not_makes (NegotiationStage.makes_of_drains hdrains) _) he'
  | endpointMade | portMade => exact Or.inl (stored_gains w (hentry _ _ rfl rfl) rfl rfl he')
  | @givesUp n stage reply after hlive hask hd =>
    have w' := w.after (stage.asks n reply).toList
    have hstored : e' ∈ ((r.after (stage.asks n reply).toList).after
          [.remove n.session n.attempt]).entries ∨
        e' ∈ Registry.handedOut ((r.after (stage.asks n reply).toList).log
          [.remove n.session n.attempt]) := by
      rw [Registry.after_append, NegotiationStage.handedOut_asks] at he'
      exact he'.imp_right fun h => List.mem_append_left _ h
    rcases w'.cargo_origin (by simp [Registry.Call.stores]) hstored with
      ⟨x, hx, hcargo⟩ | ⟨s, hs, hep, hport⟩
    · obtain ⟨e, he, hgains⟩ := asks_gains w (hentry n _ rfl hlive) reply hask hx
      exact Or.inl ⟨e, he, hgains.cargo hcargo⟩
    · refine Or.inr ⟨Nat.lt_of_le_of_lt (w.after_changes _).lastAttempt_le (w'.issued_new hs), ?_⟩
      intro kind id
      cases kind <;> simp [Entry.Holds, hep, hport]

end Move

end Broadcast

end Rostrum
