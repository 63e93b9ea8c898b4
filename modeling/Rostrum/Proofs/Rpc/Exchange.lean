import Rostrum.Proofs.Rpc.Books

/-!
# A client and its callers

The calls of a client, how far each of them is, and the steps that change this: a caller asks, a text
comes in, a caller goes on or gives up, the client stops sending, the connection ends. Between two
steps of a caller, anything may happen.

`Performs` lists what a step does. `Sound` says that the client waits for the numbers of exactly those
calls that have no outcome yet; every step keeps it.
-/

namespace Rostrum.Rpc

variable {L : Type}

/-- How far a call is. -/
inductive Standing where
  | waiting
  /-- The outcome is there, and the caller has not gone on yet. -/
  | told (outcome : Except EngineFault Json)
  | returned
  | givenUp

structure CallRecord (L : Type) where
  inquiry : Inquiry L
  /-- The number of the request, if it was sent. -/
  number : Option Nat
  standing : Standing

/-- The callers with these numbers are told an outcome, however far they are. -/
def CallRecord.tell (ids : List Nat) (outcome : Except EngineFault Json) (call : CallRecord L) :
    CallRecord L :=
  match call.number with
  | some id => if id ∈ ids then { call with standing := .told outcome } else call
  | none => call

/-- A client with its callers. A call is known by its place among the calls. -/
structure Exchange (L : Type) where
  client : Client L := {}
  calls : List (CallRecord L) := []
  sent : List SentRequest := []
  /-- Which call returned what. -/
  returns : List (Nat × Except EngineFault Json) := []

inductive Action (L : Type) where
  | ask (q : Inquiry L)
  | receive (text : String)
  | resume (k : Nat)
  | cancel (k : Nat)
  | sayGoodbye
  | lose

/-- A step after which the call in this place does not wait under this number. -/
def Action.Ends (k id : Nat) : Action L → Prop
  | .receive text => ∃ result, Incoming.ofText? text = some (.answer id result)
  | .cancel k' => k' = k
  | .lose => True
  | _ => False

namespace Exchange

def ask (e : Exchange L) (q : Inquiry L) : Exchange L :=
  match e.client.ask q with
  | (.ok sent, c) =>
    { e with client := c, calls := e.calls ++ [⟨q, some sent.id, .waiting⟩], sent := e.sent ++ [sent] }
  | (.error fault, c) =>
    { e with
      client := c
      calls := e.calls ++ [⟨q, none, .returned⟩]
      returns := e.returns ++ [(e.calls.length, .error fault)] }

/-- A text comes in. Nobody reads it once the connection has ended. -/
def receive (e : Exchange L) (text : String) : Exchange L :=
  if e.client.connected then
    match e.client.receive text with
    | (.answered id outcome, c) =>
      { e with client := c, calls := e.calls.map (CallRecord.tell [id] outcome) }
    | (_, c) => { e with client := c }
  else e

def resume (e : Exchange L) (k : Nat) : Exchange L :=
  match e.calls[k]? with
  | some ⟨q, some id, .told outcome⟩ =>
    { e with
      client := e.client.settle id outcome q
      calls := e.calls.set k ⟨q, some id, .returned⟩
      returns := e.returns ++ [(k, outcome)] }
  | _ => e

def cancel (e : Exchange L) (k : Nat) : Exchange L :=
  match e.calls[k]? with
  | some ⟨q, some id, .waiting⟩ | some ⟨q, some id, .told _⟩ =>
    { e with client := e.client.cancel id, calls := e.calls.set k ⟨q, some id, .givenUp⟩ }
  | _ => e

def lose (e : Exchange L) : Exchange L :=
  { e with
    client := e.client.lose.2
    calls := e.calls.map (CallRecord.tell e.client.lose.1 (.error Client.lost)) }

def perform (e : Exchange L) : Action L → Exchange L
  | .ask q => e.ask q
  | .receive text => e.receive text
  | .resume k => e.resume k
  | .cancel k => e.cancel k
  | .sayGoodbye => { e with client := e.client.sayGoodbye }
  | .lose => e.lose

/-- What a step does. -/
inductive Performs (e : Exchange L) : Action L → Exchange L → Prop where
  | sent {q : Inquiry L} {sent : SentRequest} {c : Client L} : e.client.ask q = (.ok sent, c) →
      Performs e (.ask q)
        { e with
          client := c, calls := e.calls ++ [⟨q, some sent.id, .waiting⟩], sent := e.sent ++ [sent] }
  | refused {q : Inquiry L} {fault : EngineFault} {c : Client L} :
      e.client.ask q = (.error fault, c) →
      Performs e (.ask q)
        { e with
          client := c
          calls := e.calls ++ [⟨q, none, .returned⟩]
          returns := e.returns ++ [(e.calls.length, .error fault)] }
  | answered {text : String} {id : Nat} {result : Except RemoteError Json} :
      Incoming.ofText? text = some (.answer id result) → id ∈ e.client.pending →
      e.client.connected →
      Performs e (.receive text)
        { e with
          client := e.client.cancel id
          calls := e.calls.map (CallRecord.tell [id] (result.mapError RemoteError.toFault)) }
  | ignored {text : String} : (e.client.connected → ∀ id result,
      Incoming.ofText? text = some (.answer id result) → id ∉ e.client.pending) →
      Performs e (.receive text) e
  | resumed {k id : Nat} {q : Inquiry L} {outcome : Except EngineFault Json} :
      e.calls[k]? = some ⟨q, some id, .told outcome⟩ →
      Performs e (.resume k)
        { e with
          client := e.client.settle id outcome q
          calls := e.calls.set k ⟨q, some id, .returned⟩
          returns := e.returns ++ [(k, outcome)] }
  | stuck {k : Nat} : (∀ q id outcome, e.calls[k]? ≠ some ⟨q, some id, .told outcome⟩) →
      Performs e (.resume k) e
  | cancelled {k id : Nat} {q : Inquiry L} {standing : Standing} :
      e.calls[k]? = some ⟨q, some id, standing⟩ →
      (standing = .waiting ∨ ∃ outcome, standing = .told outcome) →
      Performs e (.cancel k)
        { e with client := e.client.cancel id, calls := e.calls.set k ⟨q, some id, .givenUp⟩ }
  | settled {k : Nat} : (∀ q id, e.calls[k]? ≠ some ⟨q, some id, .waiting⟩) →
      Performs e (.cancel k) e
  | silent : Performs e .sayGoodbye { e with client := e.client.sayGoodbye }
  | lost : Performs e .lose
      { e with
        client := { e.client with pending := [], connected := false }
        calls := e.calls.map (CallRecord.tell e.client.pending (.error Client.lost)) }

variable {e e' : Exchange L}

theorem receive_performs (e : Exchange L) (text : String) : e.Performs (.receive text) (e.receive text) := by
  unfold receive
  split
  · rename_i hconn
    by_cases hanswer : ∃ id result, Incoming.ofText? text = some (.answer id result)
    · obtain ⟨id, result, ht⟩ := hanswer
      by_cases h : id ∈ e.client.pending
      · rw [Client.receive_of_pending ht h]
        exact .answered ht h hconn
      · rw [Client.receive_of_notMem ht h]
        apply Performs.ignored
        intro _ id' result' ht'
        obtain ⟨rfl, -⟩ := Incoming.answer.inj (Option.some.inj (ht'.symm.trans ht))
        exact h
    · have ht : ∀ id result, Incoming.ofText? text ≠ some (.answer id result) := by
        intro id result ht
        exact hanswer ⟨id, result, ht⟩
      obtain ⟨hclient, hreceipt⟩ := Client.receive_of_noAnswer (c := e.client) ht
      generalize e.client.receive text = received at hclient hreceipt
      obtain ⟨receipt, c⟩ := received
      obtain rfl : c = e.client := hclient
      have hignored : e.Performs (.receive text) e := .ignored fun _ id result h => absurd h (ht id result)
      cases receipt with
      | answered id outcome => exact absurd rfl (hreceipt id outcome)
      | heard listener candidate => exact hignored
      | ignored => exact hignored
  · rename_i hconn
    exact .ignored fun h => absurd h hconn

theorem resume_performs (e : Exchange L) (k : Nat) : e.Performs (.resume k) (e.resume k) := by
  unfold resume
  split
  · rename_i q id outcome h
    exact .resumed h
  · rename_i h
    exact .stuck h

theorem cancel_performs (e : Exchange L) (k : Nat) : e.Performs (.cancel k) (e.cancel k) := by
  unfold cancel
  split
  · rename_i q id h
    exact .cancelled h (.inl rfl)
  · rename_i q id outcome h
    exact .cancelled h (.inr ⟨outcome, rfl⟩)
  · rename_i h _
    exact .settled h

theorem perform_performs (e : Exchange L) (a : Action L) : e.Performs a (e.perform a) := by
  cases a with
  | ask q =>
    simp only [perform, ask]
    split
    · rename_i sent c h
      exact .sent h
    · rename_i fault c h
      exact .refused h
  | receive text => exact e.receive_performs text
  | resume k => exact e.resume_performs k
  | cancel k => exact e.cancel_performs k
  | sayGoodbye => exact .silent
  | lose => exact .lost

/-- The numbers of the calls that were sent, in the order of the calls. -/
def numbers (calls : List (CallRecord L)) : List Nat := (calls.map CallRecord.number).filterMap id

/-- A call waits under this number. -/
def Waits (e : Exchange L) (k id : Nat) : Prop := ∃ q, e.calls[k]? = some ⟨q, some id, .waiting⟩

/-- The client waits for the calls that have no outcome, and no two calls have the same number. -/
structure Sound (e : Exchange L) : Prop where
  sent : e.sent.map SentRequest.id = numbers e.calls
  ascending : (numbers e.calls).Pairwise (· < ·)
  below : ∀ id ∈ numbers e.calls, id < e.client.nextId
  counted : e.client.nextId ≤ e.calls.length + 1
  pending : ∀ id, id ∈ e.client.pending ↔ ∃ k, e.Waits k id
  lost : e.client.connected = false → e.client.pending = []
  returned : ∀ k ∈ e.returns.map Prod.fst, ∃ q n, e.calls[k]? = some ⟨q, n, .returned⟩
  once : (e.returns.map Prod.fst).Nodup

theorem getElem?_set_of_some {α : Type} {l : List α} {k : Nat} {x y : α} (h : l[k]? = some x) (j : Nat) :
    (l.set k y)[j]? = if k = j then some y else l[j]? := by
  obtain ⟨hlt, -⟩ := List.getElem?_eq_some_iff.mp h
  rw [List.getElem?_set]
  simp only [hlt, if_true]

theorem nodup_concat {α β : Type} {l : List (α × β)} {x : α} {y : β} (h : (l.map Prod.fst).Nodup)
    (hx : x ∉ l.map Prod.fst) : ((l ++ [(x, y)]).map Prod.fst).Nodup := by
  rw [List.map_append, List.nodup_append]
  refine ⟨h, List.pairwise_singleton .., ?_⟩
  intro a ha b hb heq
  obtain rfl : b = x := List.mem_singleton.mp hb
  exact hx (heq ▸ ha)

section Records
variable {calls : List (CallRecord L)} {call call' : CallRecord L} {ids : List Nat}
  {outcome : Except EngineFault Json} {q : Inquiry L} {n : Option Nat} {standing : Standing} {k id : Nat}

theorem tell_of_mem (h : id ∈ ids) :
    CallRecord.tell ids outcome ⟨q, some id, standing⟩ = ⟨q, some id, .told outcome⟩ := if_pos h

theorem tell_of_notMem (h : ∀ id, n = some id → id ∉ ids) :
    CallRecord.tell ids outcome ⟨q, n, standing⟩ = ⟨q, n, standing⟩ := by
  cases n with
  | none => rfl
  | some id => exact if_neg (h id rfl)

/-- A call that is told, and its record before. -/
theorem tell_cases (ids : List Nat) (outcome : Except EngineFault Json) (call : CallRecord L) :
    (∃ id ∈ ids, call.number = some id ∧
      call.tell ids outcome = ⟨call.inquiry, some id, .told outcome⟩) ∨
    ((∀ id, call.number = some id → id ∉ ids) ∧ call.tell ids outcome = call) := by
  obtain ⟨q, n, standing⟩ := call
  by_cases h : ∃ id ∈ ids, n = some id
  · obtain ⟨id, hmem, rfl⟩ := h
    exact .inl ⟨id, hmem, rfl, tell_of_mem hmem⟩
  · have hnot : ∀ id, n = some id → id ∉ ids := fun id hn hmem => h ⟨id, hmem, hn⟩
    exact .inr ⟨hnot, tell_of_notMem hnot⟩

theorem number_tell (ids : List Nat) (outcome : Except EngineFault Json) (call : CallRecord L) :
    (call.tell ids outcome).number = call.number := by
  rcases tell_cases ids outcome call with ⟨id, _, hn, h⟩ | ⟨_, h⟩
  · rw [h, hn]
  · rw [h]

theorem numbers_tell : numbers (calls.map (CallRecord.tell ids outcome)) = numbers calls := by
  have hmap : (calls.map (CallRecord.tell ids outcome)).map CallRecord.number =
      calls.map CallRecord.number := by
    rw [List.map_map]
    apply List.map_congr_left
    intro call _
    exact number_tell ids outcome call
  rw [numbers, hmap, numbers]

theorem numbers_set (h : calls[k]? = some call) (hn : call'.number = call.number) :
    numbers (calls.set k call') = numbers calls := by
  have hmap : (calls.set k call').map CallRecord.number = calls.map CallRecord.number := by
    apply List.ext_getElem?
    intro j
    rw [List.getElem?_map, getElem?_set_of_some h]
    split
    · rename_i heq
      rw [List.getElem?_map, ← heq, h, Option.map_some, Option.map_some, hn]
    · rw [List.getElem?_map]
  rw [numbers, hmap, numbers]

theorem numbers_concat : numbers (calls ++ [call]) = numbers calls ++ call.number.toList := by
  simp only [numbers, List.map_append, List.map_cons, List.map_nil, List.filterMap_append]
  cases call.number <;> rfl

theorem getElem?_concat : (calls ++ [call])[k]? = some call' ↔
    calls[k]? = some call' ∨ (k = calls.length ∧ call = call') := by
  rcases Nat.lt_trichotomy k calls.length with h | rfl | h
  · rw [List.getElem?_append_left h]
    constructor
    · exact .inl
    · rintro (hget | ⟨rfl, -⟩)
      · exact hget
      · omega
  · simp
  · have hnone : (calls ++ [call])[k]? = none := by
      apply List.getElem?_eq_none
      simp only [List.length_append, List.length_cons, List.length_nil]
      omega
    rw [hnone, List.getElem?_eq_none (Nat.le_of_lt h)]
    constructor
    · nofun
    · rintro (hget | ⟨rfl, -⟩)
      · cases hget
      · omega

end Records

variable {k k' id : Nat} {q q' : Inquiry L} {standing standing' : Standing}
  {outcome : Except EngineFault Json}

namespace Sound

theorem unique (w : e.Sound) (h : e.calls[k]? = some ⟨q, some id, standing⟩)
    (h' : e.calls[k']? = some ⟨q', some id, standing'⟩) : k = k' := by
  obtain ⟨hlt, hget⟩ := List.getElem?_eq_some_iff.mp h
  obtain ⟨hlt', hget'⟩ := List.getElem?_eq_some_iff.mp h'
  have hp := List.pairwise_map.mp (List.pairwise_filterMap.mp w.ascending)
  rw [List.pairwise_iff_getElem] at hp
  have hn : (e.calls[k]).number = some id := by rw [hget]
  have hn' : (e.calls[k']).number = some id := by rw [hget']
  rcases Nat.lt_trichotomy k k' with hk | hk | hk
  · have := hp k k' hlt hlt' hk id hn id hn'
    omega
  · exact hk
  · have := hp k' k hlt' hlt hk id hn' id hn
    omega

theorem connected (w : e.Sound) (h : e.Waits k id) : e.client.connected := by
  cases hconn : e.client.connected with
  | true => rfl
  | false =>
    have hmem : id ∈ e.client.pending := (w.pending id).mpr ⟨k, h⟩
    rw [w.lost hconn] at hmem
    cases hmem

theorem notPending (w : e.Sound) (h : e.calls[k]? = some ⟨q, some id, standing⟩)
    (hs : standing ≠ .waiting) : id ∉ e.client.pending := by
  intro hmem
  obtain ⟨k', q', hwaits⟩ := (w.pending id).mp hmem
  obtain rfl := w.unique h hwaits
  cases h.symm.trans hwaits
  exact hs rfl

theorem notReturned (w : e.Sound) (h : e.calls[k]? = some ⟨q, some id, standing⟩)
    (hs : standing ≠ .returned) : k ∉ e.returns.map Prod.fst := by
  intro hmem
  obtain ⟨q', n, hget⟩ := w.returned k hmem
  cases h.symm.trans hget
  exact hs rfl

end Sound

/-- What a call that waits after a step did before. -/
theorem waits_concat {calls : List (CallRecord L)} {call : CallRecord L} :
    (∃ q, (calls ++ [call])[k]? = some ⟨q, some id, .waiting⟩) ↔
      (∃ q, calls[k]? = some ⟨q, some id, .waiting⟩) ∨
        (k = calls.length ∧ call.number = some id ∧ call.standing = .waiting) := by
  constructor
  · rintro ⟨q, h⟩
    rcases getElem?_concat.mp h with hget | ⟨hk, rfl⟩
    · exact .inl ⟨q, hget⟩
    · exact .inr ⟨hk, rfl, rfl⟩
  · rintro (⟨q, hget⟩ | ⟨hk, hn, hs⟩)
    · exact ⟨q, getElem?_concat.mpr (.inl hget)⟩
    · obtain ⟨q, n, standing⟩ := call
      obtain rfl : n = some id := hn
      obtain rfl : standing = .waiting := hs
      exact ⟨q, getElem?_concat.mpr (.inr ⟨hk, rfl⟩)⟩

theorem waits_tell {calls : List (CallRecord L)} {ids : List Nat} :
    (∃ q, (calls.map (CallRecord.tell ids outcome))[k]? = some ⟨q, some id, .waiting⟩) ↔
      (∃ q, calls[k]? = some ⟨q, some id, .waiting⟩) ∧ id ∉ ids := by
  simp only [List.getElem?_map, Option.map_eq_some_iff]
  constructor
  · rintro ⟨q, call, hget, htell⟩
    rcases tell_cases ids outcome call with ⟨id', _, _, h⟩ | ⟨hids, h⟩
    · cases h.symm.trans htell
    · obtain rfl := h.symm.trans htell
      exact ⟨⟨q, hget⟩, hids id rfl⟩
  · rintro ⟨⟨q, hget⟩, hids⟩
    refine ⟨q, _, hget, tell_of_notMem ?_⟩
    rintro id' ⟨⟩
    exact hids

/-- When the call with a number ends, this call waits no more and the others wait as before. -/
theorem waits_set (h : e.calls[k']? = some ⟨q, some id, standing⟩)
    (hs : standing' ≠ .waiting) {id' : Nat} :
    (∃ q', (e.calls.set k' ⟨q, some id, standing'⟩)[k]? = some ⟨q', some id', .waiting⟩) ↔
      e.Waits k id' ∧ k' ≠ k := by
  simp only [getElem?_set_of_some h]
  constructor
  · rintro ⟨q', hget⟩
    by_cases hk : k' = k
    · rw [if_pos hk] at hget
      cases hget
      exact absurd rfl hs
    · rw [if_neg hk] at hget
      exact ⟨⟨q', hget⟩, hk⟩
  · rintro ⟨⟨q', hget⟩, hk⟩
    exact ⟨q', by rw [if_neg hk, hget]⟩

/-- A step by which a request goes out under a number, as that of the call in this place. -/
def Opens (e : Exchange L) (a : Action L) (k id : Nat) : Prop :=
  ∃ q sent, a = .ask q ∧ (e.client.ask q).1 = .ok sent ∧ sent.id = id ∧ e.calls.length = k

theorem iff_opens_or {a : Action L} {p p' : Prop} (ha : ∀ q, a ≠ .ask q) (h : p' ↔ p) :
    p' ↔ e.Opens a k id ∨ p := by
  constructor
  · exact fun hp => .inr (h.mp hp)
  · rintro (⟨q, _, rfl, _⟩ | hp)
    · exact absurd rfl (ha q)
    · exact h.mpr hp

/-- A call waits from the step that sends its request to the first step that ends this. -/
theorem waits_perform (w : e.Sound) (a : Action L) :
    (e.perform a).Waits k id ↔ e.Opens a k id ∨ (e.Waits k id ∧ ¬ a.Ends k id) := by
  have hp := e.perform_performs a
  generalize e.perform a = e' at hp
  cases hp with
  | @sent q sent c h =>
    apply waits_concat.trans
    constructor
    · rintro (hwaits | ⟨hk, hid, -⟩)
      · exact .inr ⟨hwaits, nofun⟩
      · exact .inl ⟨q, sent, rfl, by rw [h], Option.some.inj hid, hk.symm⟩
    · rintro (⟨_, _, ⟨⟩, hok, hid, hk⟩ | ⟨hwaits, -⟩)
      · rw [h] at hok
        cases hok
        exact .inr ⟨hk.symm, congrArg some hid, rfl⟩
      · exact .inl hwaits
  | @refused q fault c h =>
    apply waits_concat.trans
    constructor
    · rintro (hwaits | ⟨_, hid, _⟩)
      · exact .inr ⟨hwaits, nofun⟩
      · cases hid
    · rintro (⟨_, _, ⟨⟩, hok, _⟩ | ⟨hwaits, -⟩)
      · rw [h] at hok
        cases hok
      · exact .inl hwaits
  | @answered text id' result ht =>
    refine iff_opens_or nofun ?_
    apply waits_tell.trans
    rw [List.mem_singleton]
    constructor
    · rintro ⟨hwaits, hne⟩
      refine ⟨hwaits, ?_⟩
      rintro ⟨result', ht'⟩
      cases ht.symm.trans ht'
      exact hne rfl
    · rintro ⟨hwaits, hends⟩
      refine ⟨hwaits, ?_⟩
      rintro rfl
      exact hends ⟨result, ht⟩
  | ignored hignored =>
    refine iff_opens_or nofun ?_
    constructor
    · intro hwaits
      refine ⟨hwaits, ?_⟩
      rintro ⟨result, ht⟩
      exact hignored (w.connected hwaits) id result ht ((w.pending id).mpr ⟨k, hwaits⟩)
    · exact And.left
  | @resumed k' id' q outcome h =>
    refine iff_opens_or nofun ?_
    have hreturned : Standing.returned ≠ .waiting := nofun
    apply (waits_set h hreturned).trans
    constructor
    · rintro ⟨hwaits, -⟩
      exact ⟨hwaits, nofun⟩
    · rintro ⟨⟨q', hwaits⟩, -⟩
      refine ⟨⟨q', hwaits⟩, ?_⟩
      rintro rfl
      cases h.symm.trans hwaits
  | stuck h =>
    refine iff_opens_or nofun ?_
    exact ⟨fun hwaits => ⟨hwaits, nofun⟩, And.left⟩
  | @cancelled k' id' q standing h hs =>
    refine iff_opens_or nofun ?_
    have hgivenUp : Standing.givenUp ≠ .waiting := nofun
    exact waits_set h hgivenUp
  | @settled k' h =>
    refine iff_opens_or nofun ?_
    constructor
    · rintro ⟨q, hwaits⟩
      refine ⟨⟨q, hwaits⟩, ?_⟩
      rintro rfl
      exact h q id hwaits
    · exact And.left
  | silent =>
    refine iff_opens_or nofun ?_
    exact ⟨fun hwaits => ⟨hwaits, nofun⟩, And.left⟩
  | lost =>
    refine iff_opens_or nofun ?_
    apply waits_tell.trans
    constructor
    · rintro ⟨hwaits, hnot⟩
      exact absurd ((w.pending id).mpr ⟨k, hwaits⟩) hnot
    · rintro ⟨_, hends⟩
      exact absurd trivial hends

namespace Sound

theorem start : Sound ({} : Exchange L) where
  sent := rfl
  ascending := List.Pairwise.nil
  below := nofun
  counted := Nat.le_refl 1
  pending := fun _ => ⟨nofun, fun ⟨_, _, h⟩ => nomatch h⟩
  lost := nofun
  returned := nofun
  once := List.Pairwise.nil

theorem sentRequest (w : e.Sound) {sent : SentRequest} {c : Client L} (h : e.client.ask q = (.ok sent, c)) :
    Sound { e with
      client := c, calls := e.calls ++ [⟨q, some sent.id, .waiting⟩], sent := e.sent ++ [sent] } := by
  obtain ⟨hconn, hid, hbooks⟩ := Client.ask_ok h
  have hnext : c.nextId = e.client.nextId + 1 := congrArg Books.nextId hbooks
  have hpending : c.pending = e.client.pending ++ [e.client.nextId] := congrArg Books.pending hbooks
  have hstill : c.connected = e.client.connected := congrArg Books.connected hbooks
  have hnumbers : numbers (e.calls ++ [⟨q, some sent.id, .waiting⟩]) =
      numbers e.calls ++ [e.client.nextId] := by
    rw [numbers_concat, hid]
    rfl
  constructor
  · rw [hnumbers, List.map_append, w.sent, ← hid]
    rfl
  · rw [hnumbers, List.pairwise_append]
    refine ⟨w.ascending, List.pairwise_singleton .., ?_⟩
    intro id hmem next hnext
    rw [List.mem_singleton.mp hnext]
    exact w.below id hmem
  · intro id hmem
    rw [hnumbers, List.mem_append, List.mem_singleton] at hmem
    show id < c.nextId
    rcases hmem with hmem | rfl
    · have := w.below id hmem
      omega
    · omega
  · have := w.counted
    simp only [List.length_append, List.length_singleton]
    omega
  · intro id
    show id ∈ c.pending ↔ _
    rw [hpending, List.mem_append, List.mem_singleton, w.pending]
    constructor
    · rintro (⟨k, hwaits⟩ | rfl)
      · exact ⟨k, waits_concat.mpr (.inl hwaits)⟩
      · exact ⟨_, waits_concat.mpr (.inr ⟨rfl, congrArg some hid, rfl⟩)⟩
    · rintro ⟨k, hwaits⟩
      rcases waits_concat.mp hwaits with hwaits | ⟨_, hn, _⟩
      · exact .inl ⟨k, hwaits⟩
      · exact .inr ((Option.some.inj hn).symm.trans hid)
  · intro hlost
    rw [hstill.symm.trans hlost] at hconn
    cases hconn
  · intro k hmem
    obtain ⟨q', n, hget⟩ := w.returned k hmem
    exact ⟨q', n, getElem?_concat.mpr (.inl hget)⟩
  · exact w.once

theorem refusedRequest (w : e.Sound) {fault : EngineFault} {c : Client L}
    (h : e.client.ask q = (.error fault, c)) :
    Sound { e with
      client := c
      calls := e.calls ++ [⟨q, none, .returned⟩]
      returns := e.returns ++ [(e.calls.length, .error fault)] } := by
  have hbooks : e.client.nextId ≤ c.nextId ∧ c.nextId ≤ e.client.nextId + 1 ∧
      c.pending = e.client.pending ∧ c.connected = e.client.connected := by
    rcases Client.ask_error h with ⟨_, _, hbooks⟩ | ⟨_, _, hbooks⟩
    · have hnext : c.nextId = e.client.nextId + 1 := congrArg Books.nextId hbooks
      exact ⟨by omega, by omega, congrArg Books.pending hbooks, congrArg Books.connected hbooks⟩
    · have hnext : c.nextId = e.client.nextId := congrArg Books.nextId hbooks
      exact ⟨by omega, by omega, congrArg Books.pending hbooks, congrArg Books.connected hbooks⟩
  obtain ⟨hle, hnext, hpending, hstill⟩ := hbooks
  have hnumbers : numbers (e.calls ++ [⟨q, none, .returned⟩]) = numbers e.calls := by
    rw [numbers_concat]
    exact List.append_nil _
  constructor
  · rw [hnumbers, w.sent]
  · rw [hnumbers]
    exact w.ascending
  · intro id hmem
    rw [hnumbers] at hmem
    exact Nat.lt_of_lt_of_le (w.below id hmem) hle
  · have := w.counted
    simp only [List.length_append, List.length_singleton]
    omega
  · intro id
    show id ∈ c.pending ↔ _
    rw [hpending, w.pending]
    constructor
    · rintro ⟨k, hwaits⟩
      exact ⟨k, waits_concat.mpr (.inl hwaits)⟩
    · rintro ⟨k, hwaits⟩
      rcases waits_concat.mp hwaits with hwaits | ⟨_, hn, _⟩
      · exact ⟨k, hwaits⟩
      · cases hn
  · intro hlost
    show c.pending = []
    rw [hpending]
    exact w.lost (hstill.symm.trans hlost)
  · intro k hmem
    rw [List.map_append, List.mem_append] at hmem
    rcases hmem with hmem | hmem
    · obtain ⟨q', n, hget⟩ := w.returned k hmem
      exact ⟨q', n, getElem?_concat.mpr (.inl hget)⟩
    · exact ⟨q, none, getElem?_concat.mpr (.inr ⟨List.mem_singleton.mp hmem, rfl⟩)⟩
  · -- The new call has no place among the old ones.
    have hfresh : e.calls.length ∉ e.returns.map Prod.fst := by
      intro hmem
      obtain ⟨_, _, hget⟩ := w.returned _ hmem
      have hlt := (List.getElem?_eq_some_iff.mp hget).1
      omega
    exact nodup_concat w.once hfresh

/-- Calls that are told an outcome are waited for no more. -/
theorem tell (w : e.Sound) {ids : List Nat} {c : Client L} (outcome : Except EngineFault Json)
    (hids : ∀ id ∈ ids, id ∈ e.client.pending)
    (hpending : ∀ id, id ∈ c.pending ↔ id ∈ e.client.pending ∧ id ∉ ids)
    (hnext : c.nextId = e.client.nextId) (hlost : c.connected = false → c.pending = []) :
    Sound { e with client := c, calls := e.calls.map (CallRecord.tell ids outcome) } := by
  constructor
  · rw [numbers_tell]
    exact w.sent
  · rw [numbers_tell]
    exact w.ascending
  · intro id hmem
    rw [numbers_tell] at hmem
    exact hnext.symm ▸ w.below id hmem
  · have := w.counted
    simp only [List.length_map]
    omega
  · intro id
    rw [hpending, w.pending]
    constructor
    · rintro ⟨⟨k, hwaits⟩, hnot⟩
      exact ⟨k, waits_tell.mpr ⟨hwaits, hnot⟩⟩
    · rintro ⟨k, hwaits⟩
      obtain ⟨hwaits, hnot⟩ := waits_tell.mp hwaits
      exact ⟨⟨k, hwaits⟩, hnot⟩
  · exact hlost
  · intro k hmem
    obtain ⟨q, n, hget⟩ := w.returned k hmem
    refine ⟨q, n, ?_⟩
    have hnot : ∀ id, n = some id → id ∉ ids := by
      rintro id rfl hin
      exact w.notPending hget nofun (hids id hin)
    rw [List.getElem?_map, hget, Option.map_some, tell_of_notMem hnot]
  · exact w.once

/-- The call with a number comes to its end. -/
theorem finish (w : e.Sound) (h : e.calls[k]? = some ⟨q, some id, standing⟩)
    (hs : standing ≠ .returned) (hs' : standing' ≠ .waiting) {c : Client L}
    (hbooks : c.books = (e.client.cancel id).books) {returns : List (Nat × Except EngineFault Json)}
    (hreturns : returns = e.returns ∨
      standing' = .returned ∧ ∃ outcome, returns = e.returns ++ [(k, outcome)]) :
    Sound { e with
      client := c, calls := e.calls.set k ⟨q, some id, standing'⟩, returns := returns } := by
  have hnext : c.nextId = e.client.nextId := congrArg Books.nextId hbooks
  have hpending : c.pending = (e.client.cancel id).pending := congrArg Books.pending hbooks
  have hstill : c.connected = e.client.connected := congrArg Books.connected hbooks
  have hnumbers : numbers (e.calls.set k ⟨q, some id, standing'⟩) = numbers e.calls := numbers_set h rfl
  have hnot := w.notReturned h hs
  constructor
  · rw [hnumbers]
    exact w.sent
  · rw [hnumbers]
    exact w.ascending
  · intro id' hmem
    rw [hnumbers] at hmem
    exact hnext.symm ▸ w.below id' hmem
  · have := w.counted
    simp only [List.length_set]
    omega
  · intro id'
    show id' ∈ c.pending ↔ _
    rw [hpending, Client.mem_cancel, w.pending]
    constructor
    · rintro ⟨⟨k', q', hwaits⟩, hne⟩
      refine ⟨k', (waits_set h hs').mpr ⟨⟨q', hwaits⟩, ?_⟩⟩
      rintro rfl
      cases h.symm.trans hwaits
      exact hne rfl
    · rintro ⟨k', hwaits⟩
      obtain ⟨⟨q', hold⟩, hne⟩ := (waits_set h hs').mp hwaits
      refine ⟨⟨k', q', hold⟩, ?_⟩
      rintro rfl
      exact hne (w.unique h hold)
  · intro hlost
    show c.pending = []
    have hempty := w.lost (hstill.symm.trans hlost)
    rw [hpending, Client.cancel, hempty]
    rfl
  · -- What has returned before is another call.
    have hold : ∀ j ∈ e.returns.map Prod.fst,
        ∃ q' n, (e.calls.set k ⟨q, some id, standing'⟩)[j]? = some ⟨q', n, .returned⟩ := by
      intro j hmem
      obtain ⟨q', n, hget⟩ := w.returned j hmem
      have hne : k ≠ j := fun heq => hnot (heq ▸ hmem)
      exact ⟨q', n, by rw [getElem?_set_of_some h, if_neg hne, hget]⟩
    rcases hreturns with rfl | ⟨rfl, outcome, rfl⟩
    · exact hold
    · intro j hmem
      rw [List.map_append, List.mem_append] at hmem
      rcases hmem with hmem | hmem
      · exact hold j hmem
      · obtain rfl := List.mem_singleton.mp hmem
        exact ⟨q, some id, by rw [getElem?_set_of_some h, if_pos rfl]⟩
  · rcases hreturns with rfl | ⟨rfl, outcome, rfl⟩
    · exact w.once
    · exact nodup_concat w.once hnot

theorem perform (w : e.Sound) (a : Action L) : (e.perform a).Sound := by
  have hp := e.perform_performs a
  generalize e.perform a = e' at hp
  cases hp with
  | sent h => exact w.sentRequest h
  | refused h => exact w.refusedRequest h
  | @answered text id result ht hmem hconn =>
    refine w.tell _ ?_ ?_ rfl ?_
    · intro id' h
      rwa [List.mem_singleton.mp h]
    · intro id'
      rw [Client.mem_cancel, List.mem_singleton]
    · intro hlost
      exact absurd (hconn.symm.trans hlost) (nofun : ¬ true = false)
  | ignored _ => exact w
  | @resumed k id q outcome h =>
    have hbooks : (e.client.settle id outcome q).books = (e.client.cancel id).books :=
      Client.books_settle id outcome q
    have hreturned : Standing.returned ≠ .waiting := nofun
    exact w.finish h nofun hreturned hbooks (.inr ⟨rfl, outcome, rfl⟩)
  | stuck _ => exact w
  | cancelled h hs =>
    have hgivenUp : Standing.givenUp ≠ .waiting := nofun
    refine w.finish h ?_ hgivenUp rfl (.inl rfl)
    rintro rfl
    rcases hs with hs | ⟨_, hs⟩ <;> cases hs
  | settled _ => exact w
  | silent => exact ⟨w.sent, w.ascending, w.below, w.counted, w.pending, w.lost, w.returned, w.once⟩
  | lost =>
    refine w.tell _ (fun _ h => h) ?_ rfl (fun _ => rfl)
    intro id
    constructor
    · nofun
    · rintro ⟨h, hnot⟩
      exact absurd h hnot

end Sound

end Exchange

end Rostrum.Rpc
