import Rostrum.Rpc.Client

/-!
# The books of a client

The numbers a client gives out and the numbers it waits for. Sending, answers, callers that give up
and the end of the connection change these books; listeners and the engine's session have no part in
them.
-/

namespace Rostrum.Rpc

/-- The part of a client that decides about calls. -/
structure Books where
  nextId : Nat
  pending : List Nat
  connected : Bool
  sending : Bool

/-- What a caller asks for. -/
inductive Inquiry (L : Type) where
  | call (call : EngineCall L)
  /-- A request that is no call of the engine, as a ping is. -/
  | plain (request : Request)

namespace Client

variable {L : Type} (c : Client L)

def books : Books := ⟨c.nextId, c.pending, c.connected, c.sending⟩

/-- A caller asks. -/
def ask : Inquiry L → Except EngineFault SentRequest × Client L
  | .call call => c.start call
  | .plain request => c.send request

/-- A caller goes on with an outcome. Like a caller that gives up, it takes its number along. -/
def settle (id : Nat) (outcome : Except EngineFault Json) : Inquiry L → Client L
  | .call call => ((c.cancel id).finish call outcome).2
  | .plain _ =>
    match outcome with
    | .ok result => (c.cancel id).learn result
    | .error _ => c.cancel id

@[simp] theorem books_nextId : c.books.nextId = c.nextId := rfl

@[simp] theorem books_pending : c.books.pending = c.pending := rfl

@[simp] theorem books_connected : c.books.connected = c.connected := rfl

@[simp] theorem books_sending : c.books.sending = c.sending := rfl

variable {c}

theorem books_prepare (call : EngineCall L) : (c.prepare call).books = c.books := by
  cases call <;> rfl

theorem books_undo (call : EngineCall L) : (c.undo call).books = c.books := by
  cases call <;> rfl

theorem books_learn (result : Json) : (c.learn result).books = c.books := by
  unfold learn
  cases c.session <;> rfl

theorem books_finish (call : EngineCall L) (outcome : Except EngineFault Json) :
    (c.finish call outcome).2.books = c.books := by
  cases outcome with
  | ok result => exact books_learn result
  | error fault => exact books_undo call

theorem books_settle (id : Nat) (outcome : Except EngineFault Json) (q : Inquiry L) :
    (c.settle id outcome q).books = (c.cancel id).books := by
  cases q with
  | call call => exact books_finish call outcome
  | plain request =>
    cases outcome with
    | ok result => exact books_learn result
    | error fault => rfl

/-- How a client with some books takes a request, and the books it has then. -/
inductive Takes (b : Books) : Except EngineFault SentRequest → Books → Prop where
  | sent {sent : SentRequest} : b.connected → b.sending → sent.id = b.nextId →
      Takes b (.ok sent) { b with nextId := b.nextId + 1, pending := b.pending ++ [b.nextId] }
  /-- The number of the request is lost. -/
  | silent : b.connected → b.sending = false → Takes b (.error silent) { b with nextId := b.nextId + 1 }
  | lost : b.connected = false → Takes b (.error lost) b

theorem send_takes (c : Client L) (request : Request) :
    Takes c.books (c.send request).1 (c.send request).2.books := by
  cases hconn : c.connected with
  | false =>
    have hsend : c.send request = (.error lost, c) := by simp [send, hconn]
    rw [hsend]
    exact .lost hconn
  | true =>
    cases hsending : c.sending with
    | false =>
      have hsend : c.send request = (.error silent, { c with nextId := c.nextId + 1 }) := by
        simp [send, hconn, hsending]
      rw [hsend]
      exact .silent hconn hsending
    | true =>
      have hsend : c.send request =
          (.ok ⟨c.nextId, { request with params := withSession request.params c.session }⟩,
            { c with nextId := c.nextId + 1, pending := c.pending ++ [c.nextId] }) := by
        simp [send, hconn, hsending]
      rw [hsend]
      exact .sent hconn hsending rfl

theorem ask_takes (c : Client L) (q : Inquiry L) :
    Takes c.books (c.ask q).1 (c.ask q).2.books := by
  cases q with
  | plain request => exact send_takes c request
  | call call =>
    have h := send_takes (c.prepare call) (ofCall call)
    rw [books_prepare] at h
    simp only [ask, start]
    generalize (c.prepare call).send (ofCall call) = result at h
    obtain ⟨answer, c'⟩ := result
    cases answer with
    | ok sent => exact h
    | error fault =>
      have hbooks : (c'.undo call).books = c'.books := books_undo call
      rw [hbooks]
      exact h

theorem ask_ok {q : Inquiry L} {sent : SentRequest} {c' : Client L} (h : c.ask q = (.ok sent, c')) :
    c.connected ∧ sent.id = c.nextId ∧
      c'.books = { c.books with nextId := c.nextId + 1, pending := c.pending ++ [c.nextId] } := by
  have htakes := ask_takes c q
  rw [h] at htakes
  generalize hbooks : c'.books = b at htakes
  cases htakes with
  | sent hconn _ hid => exact ⟨hconn, hid, rfl⟩

theorem ask_error {q : Inquiry L} {fault : EngineFault} {c' : Client L}
    (h : c.ask q = (.error fault, c')) :
    (c.connected ∧ fault = silent ∧ c'.books = { c.books with nextId := c.nextId + 1 }) ∨
    (c.connected = false ∧ fault = lost ∧ c'.books = c.books) := by
  have htakes := ask_takes c q
  rw [h] at htakes
  generalize hbooks : c'.books = b at htakes
  cases htakes with
  | silent hconn _ => exact .inl ⟨hconn, rfl, rfl⟩
  | lost hconn => exact .inr ⟨hconn, rfl, rfl⟩

theorem mem_cancel {id id' : Nat} : id' ∈ (c.cancel id).pending ↔ id' ∈ c.pending ∧ id' ≠ id := by
  simp [cancel, List.mem_filter]

/-- A number that is not waited for cannot be given up. -/
theorem cancel_of_notMem {id : Nat} (h : id ∉ c.pending) : c.cancel id = c := by
  have hfilter : c.pending.filter (fun i => i ≠ id) = c.pending := by
    rw [List.filter_eq_self]
    intro i hi
    have hne : i ≠ id := fun heq => h (heq ▸ hi)
    exact decide_eq_true hne
  rw [cancel, hfilter]

theorem receive_of_pending {text : String} {id : Nat} {result : Except RemoteError Json}
    (ht : Incoming.ofText? text = some (.answer id result)) (h : id ∈ c.pending) :
    c.receive text = (.answered id (result.mapError RemoteError.toFault), c.cancel id) := by
  simp only [receive, ht, List.contains_iff_mem.mpr h, if_true]

theorem receive_of_notMem {text : String} {id : Nat} {result : Except RemoteError Json}
    (ht : Incoming.ofText? text = some (.answer id result)) (h : id ∉ c.pending) :
    c.receive text = (.ignored, c) := by
  have hcontains : c.pending.contains id = false := by simpa using h
  simp only [receive, ht, hcontains, Bool.false_eq_true, if_false]

theorem receive_of_noAnswer {text : String}
    (ht : ∀ id result, Incoming.ofText? text ≠ some (.answer id result)) :
    (c.receive text).2 = c ∧ ∀ id outcome, (c.receive text).1 ≠ .answered id outcome := by
  unfold receive
  split
  · rename_i id result h
    exact absurd h (ht id result)
  · split
    · exact ⟨rfl, nofun⟩
    · exact ⟨rfl, nofun⟩
  · exact ⟨rfl, nofun⟩

end Client

end Rostrum.Rpc
