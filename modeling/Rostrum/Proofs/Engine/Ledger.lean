import Rostrum.Proofs.Engine.Effects

/-!
# The books of the simulated engine are exact

Calls come in and are carried out in any order; an offer waits until its gate is open, and a call may be
given up before it is carried out. Main statement: whatever is asked of the engine, its books say what
the replies say. The objects that are live are those that were created and not released, candidates go
to whoever subscribed last, and exactly as many calls fail as were made to.
-/

namespace Rostrum

namespace EngineCall
variable {L : Type}

/-- The object a call created. -/
def made? (call : EngineCall L) (reply : Reply) : Option (ObjectId × ObjectKind) :=
  match call.makes?, reply with
  | some kind, .ok name => some (⟨name⟩, kind)
  | _, _ => none

/-- The object a call released. -/
def freed? : EngineCall L → Reply → Option ObjectId
  | .release id, .ok _ => some id
  | _, _ => none

/-- The listener that a call put in place for an object. -/
def subscribed? (id : ObjectId) : EngineCall L → Reply → Option L
  | .subscribe endpoint listener, .ok _ => if endpoint.id = id then some listener else none
  | _, _ => none

/-- Whether a call failed because it was made to. -/
def isInjected (call : EngineCall L) : Reply → Bool
  | .error fault => fault = SimulatedEngine.injectedFault call.operation
  | .ok _ => false

variable {call : EngineCall L}

theorem made?_of_makes? {kind : ObjectKind} (h : call.makes? = some kind) (name : String) :
    call.made? (.ok name) = some (⟨name⟩, kind) := by
  simp only [made?, h]

theorem made?_of_makes?_eq_none (h : call.makes? = none) (reply : Reply) : call.made? reply = none := by
  simp only [made?, h]

theorem made?_error (fault : EngineFault) : call.made? (.error fault) = none := by
  cases call <;> rfl

theorem freed?_error (fault : EngineFault) : call.freed? (.error fault) = none := by
  cases call <;> rfl

theorem freed?_of_operation (h : call.operation ≠ .release) (reply : Reply) : call.freed? reply = none := by
  cases call with
  | release id => exact absurd rfl h
  | _ => rfl

theorem subscribed?_error (id : ObjectId) (fault : EngineFault) :
    call.subscribed? id (.error fault) = none := by
  cases call <;> rfl

theorem subscribed?_of_operation (h : call.operation ≠ .subscribe) (id : ObjectId) (reply : Reply) :
    call.subscribed? id reply = none := by
  cases call with
  | subscribe endpoint listener => exact absurd rfl h
  | _ => rfl

theorem operation_of_makes? {kind : ObjectKind} (h : call.makes? = some kind) :
    call.operation ≠ .release ∧ call.operation ≠ .subscribe := by
  cases call with
  | createPipeline | createMixer _ | createEndpoint _ | createPort _ => exact ⟨nofun, nofun⟩
  | _ => cases h

end EngineCall

/-- A call that was carried out, with the engine as it was before. -/
structure Execution (L : Type) where
  /-- The number under which the call came in. -/
  number : Nat
  engine : SimulatedEngine L
  call : EngineCall L

namespace Execution
variable {L : Type}

def reply (x : Execution L) : Reply := (x.engine.run x.call).1

/-- The engine afterwards. -/
def left (x : Execution L) : SimulatedEngine L := (x.engine.run x.call).2

def isInjected (x : Execution L) : Bool := x.call.isInjected x.reply

/-- Whether the call names an object that is not live. -/
def isStray (x : Execution L) : Bool := x.call.objects.any fun id => !x.engine.isLive id

/-- Whether the call is a release that was not made to fail, of an object that is not live. -/
def isDoubleRelease (x : Execution L) : Bool :=
  x.call.operation = .release && !x.isInjected && x.isStray

theorem carries (x : Execution L) : x.engine.Carries x.call x.reply x.left :=
  x.engine.run_carries x.call

/-- The objects that some calls created, in order. -/
def madeBy (xs : List (Execution L)) : List (ObjectId × ObjectKind) :=
  xs.filterMap fun x => x.call.made? x.reply

/-- The objects that some calls released. -/
def freedBy (xs : List (Execution L)) : List ObjectId :=
  xs.filterMap fun x => x.call.freed? x.reply

/-- The listeners that some calls put in place for an object, in order. -/
def subscribedBy (id : ObjectId) (xs : List (Execution L)) : List L :=
  xs.filterMap fun x => x.call.subscribed? id x.reply

section Concat
variable (xs : List (Execution L)) (x : Execution L)

theorem madeBy_concat : madeBy (xs ++ [x]) = madeBy xs ++ (x.call.made? x.reply).toList := by
  cases h : x.call.made? x.reply <;> simp [madeBy, h]

theorem freedBy_concat : freedBy (xs ++ [x]) = freedBy xs ++ (x.call.freed? x.reply).toList := by
  cases h : x.call.freed? x.reply <;> simp [freedBy, h]

theorem subscribedBy_concat (id : ObjectId) :
    subscribedBy id (xs ++ [x]) = subscribedBy id xs ++ (x.call.subscribed? id x.reply).toList := by
  cases h : x.call.subscribed? id x.reply <;> simp [subscribedBy, h]

end Concat

end Execution

namespace SimulatedEngine
open Execution

variable {L : Type} {e e' : SimulatedEngine L} {xs : List (Execution L)}

theorem isLive_iff {id : ObjectId} : e.isLive id = true ↔ ∃ kind, (id, kind) ∈ e.live.entries := by
  constructor
  · intro h
    obtain ⟨kind, hkind⟩ := Option.isSome_iff_exists.mp h
    exact ⟨kind, Table.mem_of_find hkind⟩
  · intro ⟨kind, h⟩
    cases hfind : e.live.get? id with
    | none => exact absurd (List.mem_map.mpr ⟨_, h, rfl⟩) ((Table.find_eq_none_iff id _).mp hfind)
    | some kind' => simp [isLive, Table.contains, hfind]

/-- The objects and the listeners in the books are what the replies say. -/
structure Exact (e : SimulatedEngine L) (xs : List (Execution L)) : Prop where
  named : ∀ o ∈ madeBy xs, ∃ n ≤ e.created, o.1 = e.style.objectName n o.2
  distinct : ((madeBy xs).map Prod.fst).Nodup
  freed : ∀ id ∈ freedBy xs, id ∈ (madeBy xs).map Prod.fst
  subscribed : ∀ id, id ∉ (madeBy xs).map Prod.fst → subscribedBy id xs = []
  live : e.live.entries = (madeBy xs).filter fun o => o.1 ∉ freedBy xs
  listener : ∀ id, e.listener? id = if e.isLive id then (subscribedBy id xs).getLast? else none

theorem exact_start (style : EngineStyle) : Exact ({ style := style } : SimulatedEngine L) [] where
  named := nofun
  distinct := List.nodup_nil
  freed := nofun
  subscribed _ _ := rfl
  live := rfl
  listener _ := rfl

/-- Two engines with the same objects and listeners. -/
structure SameObjects (e e' : SimulatedEngine L) : Prop where
  style : e'.style = e.style
  created : e'.created = e.created
  live : e'.live = e.live
  listeners : e'.listeners = e.listeners

namespace Exact
variable (w : e.Exact xs)
include w

theorem of_same (h : SameObjects e e') : e'.Exact xs where
  named := by rw [h.created, h.style]; exact w.named
  distinct := w.distinct
  freed := w.freed
  subscribed := w.subscribed
  live := by rw [h.live]; exact w.live
  listener id := by
    have hlistener := w.listener id
    unfold listener? isLive at hlistener ⊢
    rwa [h.live, h.listeners]

theorem mem_made_of_live {id : ObjectId} (h : e.isLive id = true) : id ∈ (madeBy xs).map Prod.fst := by
  obtain ⟨kind, hkind⟩ := isLive_iff.mp h
  rw [w.live] at hkind
  exact List.mem_map.mpr ⟨_, (List.mem_filter.mp hkind).1, rfl⟩

/-- The name of the next object was given to nothing yet. -/
theorem fresh (kind : ObjectKind) :
    e.style.objectName (e.created + 1) kind ∉ (madeBy xs).map Prod.fst := by
  intro h
  obtain ⟨o, ho, heq⟩ := List.mem_map.mp h
  obtain ⟨n, hn, hname⟩ := w.named o ho
  have hnumber := EngineStyle.number_of_objectName (hname.symm.trans heq)
  omega

/-- An object that is not live has no listener, so there is none to remove. -/
theorem erase_listener {id : ObjectId} (h : e.isLive id = false) :
    e.listeners.erase id = e.listeners := by
  apply Table.erase_of_get?_eq_none
  have hnone := w.listener id
  rwa [h] at hnone

variable {x : Execution L}

/-- One more call that created, released and subscribed nothing. -/
theorem quiet (h : SameObjects e e') (hmade : x.call.made? x.reply = none)
    (hfreed : x.call.freed? x.reply = none) (hsubscribed : ∀ id, x.call.subscribed? id x.reply = none) :
    e'.Exact (xs ++ [x]) := by
  have w' := w.of_same h
  have hm : madeBy (xs ++ [x]) = madeBy xs := by simp [madeBy_concat, hmade]
  have hf : freedBy (xs ++ [x]) = freedBy xs := by simp [freedBy_concat, hfreed]
  have hs : ∀ id, subscribedBy id (xs ++ [x]) = subscribedBy id xs := by
    intro id
    simp [subscribedBy_concat, hsubscribed]
  constructor
  · rw [hm]; exact w'.named
  · rw [hm]; exact w'.distinct
  · rw [hm, hf]; exact w'.freed
  · intro id hid
    rw [hs]
    exact w'.subscribed id (hm ▸ hid)
  · rw [hm, hf]; exact w'.live
  · intro id
    rw [hs]
    exact w'.listener id

theorem dead_of_notMem_made {id : ObjectId} (h : id ∉ (madeBy xs).map Prod.fst) : e.isLive id = false :=
  Bool.eq_false_iff.mpr fun hlive => h (w.mem_made_of_live hlive)

/-- One more call that created an object. -/
theorem created {kind : ObjectKind} (h : SameObjects (e.create kind).2 e')
    (hmade : x.call.made? x.reply = some ((e.create kind).1, kind))
    (hfreed : x.call.freed? x.reply = none) (hsubscribed : ∀ id, x.call.subscribed? id x.reply = none) :
    e'.Exact (xs ++ [x]) := by
  have hm : madeBy (xs ++ [x]) = madeBy xs ++ [((e.create kind).1, kind)] := by simp [madeBy_concat, hmade]
  have hf : freedBy (xs ++ [x]) = freedBy xs := by simp [freedBy_concat, hfreed]
  have hs : ∀ id, subscribedBy id (xs ++ [x]) = subscribedBy id xs := by
    intro id
    simp [subscribedBy_concat, hsubscribed]
  have hfresh : (e.create kind).1 ∉ (madeBy xs).map Prod.fst := w.fresh kind
  have hdead : e.isLive (e.create kind).1 = false := w.dead_of_notMem_made hfresh
  have hnone : e.live.get? (e.create kind).1 = none := by simpa [isLive, Table.contains] using hdead
  have hunfreed : (e.create kind).1 ∉ freedBy xs := fun hid => hfresh (w.freed _ hid)
  apply of_same _ h
  constructor
  · rw [hm]
    intro o ho
    rcases List.mem_append.mp ho with hold | hnew
    · obtain ⟨n, hn, heq⟩ := w.named o hold
      exact ⟨n, Nat.le_succ_of_le hn, heq⟩
    · cases List.mem_singleton.mp hnew
      exact ⟨e.created + 1, Nat.le_refl _, rfl⟩
  · rw [hm, List.map_append]
    apply List.nodup_append.mpr
    refine ⟨w.distinct, List.nodup_singleton _, ?_⟩
    intro id hid id' hid' heq
    cases List.mem_singleton.mp hid'
    exact hfresh (heq ▸ hid)
  · rw [hm, hf, List.map_append]
    intro id hid
    exact List.mem_append_left _ (w.freed id hid)
  · rw [hm, List.map_append]
    intro id hid
    rw [hs]
    exact w.subscribed id fun hold => hid (List.mem_append_left _ hold)
  · have hput : (e.create kind).2.live.entries = e.live.entries ++ [((e.create kind).1, kind)] :=
      Table.entries_put_of_get?_eq_none hnone kind
    rw [hm, hf, hput, w.live, List.filter_append]
    simp [hunfreed]
  · intro id
    have hlistener := w.listener id
    have hput : (e.create kind).2.live.get? id = if (e.create kind).1 = id then some kind else e.live.get? id :=
      Table.get?_put _ _ _ _
    rw [hs]
    unfold listener? isLive Table.contains at hlistener ⊢
    rw [hput]
    split
    · rename_i hid
      subst hid
      rw [hnone] at hlistener
      rw [w.subscribed _ hfresh]
      exact hlistener
    · exact hlistener

/-- One more call that released an object. -/
theorem released {id : ObjectId} (hlive : e.isLive id = true)
    (h : SameObjects { e with listeners := e.listeners.erase id, live := e.live.erase id } e')
    (hmade : x.call.made? x.reply = none) (hfreed : x.call.freed? x.reply = some id)
    (hsubscribed : ∀ id, x.call.subscribed? id x.reply = none) : e'.Exact (xs ++ [x]) := by
  have hm : madeBy (xs ++ [x]) = madeBy xs := by simp [madeBy_concat, hmade]
  have hf : freedBy (xs ++ [x]) = freedBy xs ++ [id] := by simp [freedBy_concat, hfreed]
  have hs : ∀ id, subscribedBy id (xs ++ [x]) = subscribedBy id xs := by
    intro id
    simp [subscribedBy_concat, hsubscribed]
  apply of_same _ h
  constructor
  · rw [hm]; exact w.named
  · rw [hm]; exact w.distinct
  · rw [hm, hf]
    intro id' hid'
    rcases List.mem_append.mp hid' with hold | hnew
    · exact w.freed id' hold
    · cases List.mem_singleton.mp hnew
      exact w.mem_made_of_live hlive
  · intro id' hid'
    rw [hs]
    exact w.subscribed id' (hm ▸ hid')
  · have herase : (e.live.erase id).entries = e.live.entries.filter fun o => o.1 ≠ id := rfl
    rw [hm, hf, herase, w.live, List.filter_filter]
    apply List.filter_congr
    intro o _
    simp [not_or, and_comm]
  · intro id'
    have hlistener := w.listener id'
    rw [hs]
    unfold listener? isLive Table.contains at hlistener ⊢
    rw [Table.get?_erase, Table.get?_erase]
    split
    · rfl
    · exact hlistener

/-- One more call that subscribed to an object. -/
theorem subscribes {id : ObjectId} {listener : L} (hlive : e.isLive id = true)
    (h : SameObjects { e with listeners := e.listeners.put id listener } e')
    (hmade : x.call.made? x.reply = none) (hfreed : x.call.freed? x.reply = none)
    (hsubscribed : ∀ id', x.call.subscribed? id' x.reply = if id = id' then some listener else none) :
    e'.Exact (xs ++ [x]) := by
  have hm : madeBy (xs ++ [x]) = madeBy xs := by simp [madeBy_concat, hmade]
  have hf : freedBy (xs ++ [x]) = freedBy xs := by simp [freedBy_concat, hfreed]
  have hs : ∀ id', subscribedBy id' (xs ++ [x]) =
      subscribedBy id' xs ++ (if id = id' then some listener else none).toList := by
    intro id'
    rw [subscribedBy_concat, hsubscribed]
  apply of_same _ h
  constructor
  · rw [hm]; exact w.named
  · rw [hm]; exact w.distinct
  · rw [hm, hf]; exact w.freed
  · rw [hm]
    intro id' hid'
    have hne : id ≠ id' := by
      rintro rfl
      exact hid' (w.mem_made_of_live hlive)
    rw [hs, if_neg hne, w.subscribed id' hid']
    rfl
  · rw [hm, hf]; exact w.live
  · intro id'
    have hlistener := w.listener id'
    rw [hs]
    unfold listener? isLive at hlistener ⊢
    rw [Table.get?_put]
    split
    · rename_i hid
      subst hid
      unfold isLive at hlive
      simp [hlive]
    · simpa using hlistener

end Exact

variable {x : Execution L}

/-- Every call leaves the books exact. -/
theorem Exact.carried (w : x.engine.Exact xs) : x.left.Exact (xs ++ [x]) := by
  have c := x.carries
  generalize hreply : x.reply = reply at c
  generalize x.left = left at c ⊢
  cases c with
  | failed | unknown =>
    refine w.quiet ⟨rfl, rfl, rfl, rfl⟩ ?_ ?_ ?_
    · rw [hreply, EngineCall.made?_error]
    · rw [hreply, EngineCall.freed?_error]
    · intro id
      rw [hreply, EngineCall.subscribed?_error]
  | missed _ _ hdead =>
    refine w.quiet ⟨rfl, rfl, rfl, w.erase_listener hdead⟩ ?_ ?_ ?_
    · rw [hreply, EngineCall.made?_error]
    · rw [hreply, EngineCall.freed?_error]
    · intro id
      rw [hreply, EngineCall.subscribed?_error]
  | answered _ hmakes hrelease hsubscribe _ =>
    refine w.quiet ⟨rfl, rfl, rfl, rfl⟩ ?_ ?_ ?_
    · exact EngineCall.made?_of_makes?_eq_none hmakes _
    · exact EngineCall.freed?_of_operation hrelease _
    · intro id
      exact EngineCall.subscribed?_of_operation hsubscribe id _
  | made _ hmakes _ =>
    obtain ⟨hrelease, hsubscribe⟩ := EngineCall.operation_of_makes? hmakes
    refine w.created ⟨rfl, rfl, rfl, rfl⟩ ?_ ?_ ?_
    · rw [hreply, EngineCall.made?_of_makes? hmakes]
      rfl
    · exact EngineCall.freed?_of_operation hrelease _
    · intro id
      exact EngineCall.subscribed?_of_operation hsubscribe id _
  | freed _ hcall hlive =>
    refine w.released hlive ⟨rfl, rfl, rfl, rfl⟩ ?_ ?_ ?_
    · rw [hcall]
      exact EngineCall.made?_of_makes?_eq_none rfl _
    · rw [hcall, hreply]
      rfl
    · intro id
      rw [hcall]
      rfl
  | subscribed _ hcall hlive =>
    refine w.subscribes hlive ⟨rfl, rfl, rfl, rfl⟩ ?_ ?_ ?_
    · rw [hcall]
      exact EngineCall.made?_of_makes?_eq_none rfl _
    · rw [hcall]
      rfl
    · intro id
      rw [hcall, hreply]
      rfl

theorem isStray_iff : x.isStray = true ↔ ∃ id ∈ x.call.objects, x.engine.isLive id = false := by
  simp [Execution.isStray]

/-- A call that is made to fail or names an object that is not live changes no object and no listener. -/
theorem Exact.unchanged (w : x.engine.Exact xs) (h : x.isInjected ∨ x.isStray) :
    SameObjects x.engine x.left := by
  have hinjected : (∀ id ∈ x.call.objects, x.engine.isLive id = true) → x.isInjected = true := by
    intro hall
    rcases h with hinjected | hstray
    · exact hinjected
    · obtain ⟨id, hid, hdead⟩ := isStray_iff.mp hstray
      exact absurd (hall id hid) (Bool.eq_false_iff.mp hdead)
  have c := x.carries
  unfold Execution.isInjected at hinjected
  generalize x.reply = reply at c hinjected
  generalize x.left = left at c ⊢
  cases c with
  | failed | unknown | answered => exact ⟨rfl, rfl, rfl, rfl⟩
  | missed _ _ hdead => exact ⟨rfl, rfl, rfl, w.erase_listener hdead⟩
  | made _ _ hall => cases hinjected hall
  | freed _ hcall hlive | subscribed _ hcall hlive =>
    rw [hcall] at hinjected
    cases hinjected fun id hid => by cases List.mem_singleton.mp hid; exact hlive

/-! ## What is counted -/

theorem journal_left (x : Execution L) : x.left.journal = x.engine.journal.push x.call := by
  have c := x.carries
  generalize x.reply = reply at c
  generalize x.left = left at c ⊢
  cases c <;> rfl

theorem injectedFault_ne_unknownObject (o : Operation) (id : String) :
    EngineFault.unknownObject id ≠ injectedFault o := nofun

/-- A call fails because it was made to if and only if its operation has such a failure left. -/
theorem isInjected_iff (x : Execution L) :
    x.isInjected = true ↔ 0 < x.engine.outstanding x.call.operation := by
  have c := x.carries
  unfold Execution.isInjected
  generalize x.reply = reply at c ⊢
  generalize x.left = left at c
  cases c with
  | failed h => simp [EngineCall.isInjected, h]
  | unknown h _ _ _ | missed h _ _ => simp [EngineCall.isInjected, injectedFault_ne_unknownObject, h]
  | freed h _ _ | made h _ _ | subscribed h _ _ | answered h _ _ _ _ => simp [EngineCall.isInjected, h]

theorem outstanding_put (e : SimulatedEngine L) (o o' : Operation) (n : Nat) :
    outstanding { e with failures := e.failures.put o n } o' = if o = o' then n else e.outstanding o' := by
  unfold outstanding
  rw [Table.get?_put]
  split <;> rfl

theorem not_injected {x : Execution L} (h : x.engine.outstanding x.call.operation = 0) :
    x.isInjected = false :=
  Bool.eq_false_iff.mpr fun hinjected => by
    have hpos := (isInjected_iff x).mp hinjected
    omega

/-- Such a failure is used up by the call that it makes fail, and by nothing else. -/
theorem outstanding_left (x : Execution L) (o : Operation) :
    x.left.outstanding o + (if x.call.operation = o ∧ x.isInjected then 1 else 0) =
      x.engine.outstanding o := by
  have hinjected := isInjected_iff x
  have c := x.carries
  generalize x.reply = reply at c
  generalize x.left = left at c ⊢
  cases c with
  | @failed n h =>
    have hput := outstanding_put (x.engine.noted x.call) x.call.operation o n
    by_cases ho : x.call.operation = o
    · subst ho
      rw [if_pos ⟨rfl, hinjected.mpr (by omega)⟩, h]
      exact congrArg (· + 1) (hput.trans (if_pos rfl))
    · rw [if_neg fun hboth => ho hboth.1]
      exact hput.trans (if_neg ho)
  | unknown h _ _ _ | missed h _ _ | freed h _ _ | made h _ _ | subscribed h _ _ | answered h _ _ _ _ =>
    rw [if_neg fun hboth => Bool.false_ne_true ((not_injected h).symm.trans hboth.2)]
    rfl

theorem outstanding_left_of_ne {x : Execution L} {o : Operation} (h : x.call.operation ≠ o) :
    x.left.outstanding o = x.engine.outstanding o := by
  have hleft := outstanding_left x o
  rwa [if_neg fun hboth => h hboth.1] at hleft

/-- A call uses up a failure of its operation if there is one, so all others come one nearer. -/
theorem lt_outstanding_left_iff (x : Execution L) (i : Nat) :
    i < x.left.outstanding x.call.operation ↔ i + 1 < x.engine.outstanding x.call.operation := by
  have hleft := outstanding_left x x.call.operation
  have hinjected := isInjected_iff x
  by_cases hfails : x.isInjected = true
  · rw [if_pos ⟨rfl, hfails⟩] at hleft
    omega
  · rw [if_neg fun hboth => hfails hboth.2] at hleft
    have hzero : ¬0 < x.engine.outstanding x.call.operation := fun hpos => hfails (hinjected.mpr hpos)
    omega

theorem doubleReleases_left (x : Execution L) : x.left.doubleReleases =
    x.engine.doubleReleases + if x.isDoubleRelease then 1 else 0 := by
  have hinjected := isInjected_iff x
  have c := x.carries
  generalize x.reply = reply at c
  generalize x.left = left at c ⊢
  cases c with
  | failed h =>
    have hfailed : x.isInjected = true := hinjected.mpr (by omega)
    simp [Execution.isDoubleRelease, hfailed, noted]
  | unknown _ hcall _ _ | answered _ _ hcall _ _ => simp [Execution.isDoubleRelease, hcall, noted]
  | made _ hmakes _ =>
    have hcall := (EngineCall.operation_of_makes? hmakes).1
    simp [Execution.isDoubleRelease, hcall, noted]
  | missed h hcall hdead =>
    have hstray : x.isStray = true := by simp [Execution.isStray, hcall, EngineCall.objects, hdead]
    simp [Execution.isDoubleRelease, hstray, not_injected h, show x.call.operation = .release by rw [hcall]; rfl]
  | freed _ hcall hlive =>
    have hstray : x.isStray = false := by simp [Execution.isStray, hcall, EngineCall.objects, hlive]
    simp [Execution.isDoubleRelease, hstray, noted]
  | subscribed _ hcall _ => simp [Execution.isDoubleRelease, hcall, EngineCall.operation, noted]

end SimulatedEngine

end Rostrum
