import Rostrum.Proofs.Broadcast.Basic
import Rostrum.Proofs.Rpc.Matching
import Rostrum.Rehearsal.Peer

/-!
# Callers that wait only so long

A caller of the engine looks for its outcome from time to time. If the outcome is there it returns it, even
when its time has run out meanwhile. If it is not there and the time has run out, the caller returns that
its time is over, and the client forgets the number of the request.

Main statement: the name of an object that the engine has made is returned by the call that made it, if the
answer came before the caller gave up. If the answer comes later, nobody hears of it: everything goes on as
if it had never come, and the object stays with the engine.
-/

namespace Rostrum.Rpc

variable {L : Type}

/-- What a call of the engine returns for an outcome. -/
def replyTo (call : EngineCall L) : Except EngineFault Json → Reply
  | .ok result => Client.replyOf call result
  | .error fault => .error fault

/-- A call that makes an object returns its name. -/
theorem replyTo_of_creates {call : EngineCall L} (h : call.creates?.isSome) (result : Json) :
    replyTo call (.ok result) = resultText result := by
  cases call <;> first | rfl | cases h

/-- The number of an answer and the text value that it brings. -/
def Incoming.brings? (text : String) : Option (Nat × String) :=
  match ofText? text with
  | some (.answer id (.ok result)) => (resultText result).toOption.map fun name => (id, name)
  | _ => none

theorem Incoming.of_brings? {text name : String} {id : Nat} (h : brings? text = some (id, name)) :
    ∃ result, ofText? text = some (.answer id (.ok result)) ∧ resultText result = .ok name := by
  unfold brings? at h
  split at h
  · rename_i id' result htext
    obtain ⟨name', hname, heq⟩ := Option.map_eq_some_iff.mp h
    cases heq
    refine ⟨result, htext, ?_⟩
    cases hresult : resultText result with
    | ok => rw [hresult] at hname; cases hname; rfl
    | error => rw [hresult] at hname; cases hname
  · cases h

/-- A request that has an object released. -/
def SentRequest.Releases (r : SentRequest) (name : String) : Prop :=
  r.request.method = "release" ∧ r.request.params.get? "object" = some (.string name)

/-- What a call of the engine returns when its time is over. -/
def lateReply (millis : Nat) (call : EngineCall L) : Reply :=
  .error (.timedOut call.operation.name millis)

/-- What happens to a client whose callers wait only so long. -/
inductive Occasion (L : Type) where
  | ask (q : Inquiry L)
  | receive (text : String)
  /-- A caller looks for its outcome; whether its time has run out by then. -/
  | look (k : Nat) (late : Bool)
  | sayGoodbye
  | lose

/-- A client with callers that wait only so long, and what the calls of the engine have returned. -/
structure Limited (L : Type) where
  exchange : Exchange L := {}
  replies : List (Nat × Reply) := []

namespace Exchange
variable {e : Exchange L} {a : Action L} {k id : Nat} {q : Inquiry L} {n : Option Nat}
  {standing : Standing} {outcome : Except EngineFault Json}

/-- A call that has come to its end stays as it is. -/
theorem ended_stays (w : e.Sound) (h : e.calls[k]? = some ⟨q, n, standing⟩)
    (hs : standing = .returned ∨ standing = .givenUp) (a : Action L) :
    (e.perform a).calls[k]? = some ⟨q, n, standing⟩ := by
  have hwaits : standing ≠ .waiting := by rintro rfl; rcases hs with hs | hs <;> cases hs
  have htold : ∀ outcome, standing ≠ .told outcome := by rintro _ rfl; rcases hs with hs | hs <;> cases hs
  have hp := e.perform_performs a
  generalize e.perform a = e' at hp
  cases hp with
  | sent _ | refused _ => exact getElem?_concat.mpr (.inl h)
  | answered _ hmem _ => exact getElem?_tell w (fun id hid => List.mem_singleton.mp hid ▸ hmem) _ h hwaits
  | lost => exact getElem?_tell w (fun _ hid => hid) _ h hwaits
  | @resumed k' _ _ _ hget =>
    have hk : k' ≠ k := by
      rintro rfl
      cases h.symm.trans hget
      exact htold _ rfl
    show (e.calls.set k' _)[k]? = _
    rw [getElem?_set_of_some hget, if_neg hk, h]
  | @cancelled k' _ _ _ hget hopen =>
    have hk : k' ≠ k := by
      rintro rfl
      cases h.symm.trans hget
      rcases hopen with rfl | ⟨_, rfl⟩
      · exact hwaits rfl
      · exact htold _ rfl
    show (e.calls.set k' _)[k]? = _
    rw [getElem?_set_of_some hget, if_neg hk, h]
  | ignored _ | stuck _ | settled _ | silent => exact h

/-- A caller has given up in this step, or before. -/
theorem givenUp_perform (h : (e.perform a).calls[k]? = some ⟨q, n, .givenUp⟩) :
    e.calls[k]? = some ⟨q, n, .givenUp⟩ ∨
      a = .cancel k ∧ ∃ standing, e.calls[k]? = some ⟨q, n, standing⟩ := by
  have hp := e.perform_performs a
  generalize e.perform a = e' at hp h
  have htell : ∀ ids outcome, (e.calls.map (CallRecord.tell ids outcome))[k]? = some ⟨q, n, .givenUp⟩ →
      e.calls[k]? = some ⟨q, n, .givenUp⟩ := by
    intro ids outcome htold
    rw [List.getElem?_map, Option.map_eq_some_iff] at htold
    obtain ⟨call, hget, htell⟩ := htold
    rcases tell_cases ids outcome call with ⟨id, _, _, h⟩ | ⟨_, h⟩
    · cases h.symm.trans htell
    · rwa [← htell, h]
  cases hp with
  | sent _ | refused _ =>
    rcases getElem?_concat.mp h with h | ⟨_, h⟩
    · exact .inl h
    · cases h
  | answered _ _ _ | lost => exact .inl (htell _ _ h)
  | @resumed k' _ _ _ hget =>
    replace h : (e.calls.set k' _)[k]? = _ := h
    rw [getElem?_set_of_some hget] at h
    split at h
    · cases h
    · exact .inl h
  | @cancelled k' id _ standing hget _ =>
    replace h : (e.calls.set k' _)[k]? = _ := h
    rw [getElem?_set_of_some hget] at h
    split at h
    · rename_i hk
      cases h
      exact .inr ⟨congrArg Action.cancel hk, standing, hk ▸ hget⟩
    · exact .inl h
  | ignored _ | stuck _ | settled _ | silent => exact .inl h

/-- A call returns in this step, with the outcome it was told or because it was refused, or before. -/
theorem mem_returns_cases (h : (k, outcome) ∈ (e.perform a).returns) :
    (k, outcome) ∈ e.returns ∨
    (a = .resume k ∧ ∃ q id, e.calls[k]? = some ⟨q, some id, .told outcome⟩ ∧
      (e.perform a).calls[k]? = some ⟨q, some id, .returned⟩) ∨
    ∃ q fault, a = .ask q ∧ (e.client.ask q).1 = .error fault ∧ k = e.calls.length ∧
      outcome = .error fault ∧ (e.perform a).calls[k]? = some ⟨q, none, .returned⟩ := by
  have hp := e.perform_performs a
  generalize e.perform a = e' at hp h
  cases hp with
  | @refused q fault c hask =>
    rcases List.mem_append.mp h with h | h
    · exact .inl h
    · cases List.mem_singleton.mp h
      exact .inr (.inr ⟨q, fault, rfl, congrArg Prod.fst hask, rfl, rfl,
        getElem?_concat.mpr (.inr ⟨rfl, rfl⟩)⟩)
  | resumed hget =>
    rcases List.mem_append.mp h with h | h
    · exact .inl h
    · cases List.mem_singleton.mp h
      exact .inr (.inl ⟨rfl, _, _, hget, (getElem?_set_of_some hget _).trans (if_pos rfl)⟩)
  | _ => exact .inl h

/-- A caller that asks in vain has returned. -/
theorem returns_of_refused {fault : EngineFault} (h : (e.client.ask q).1 = .error fault) :
    (e.calls.length, .error fault) ∈ (e.perform (.ask q)).returns ∧
      (e.perform (.ask q)).calls[e.calls.length]? = some ⟨q, none, .returned⟩ := by
  have hp := e.perform_performs (.ask q)
  generalize e.perform (.ask q) = e' at hp
  cases hp with
  | sent hask =>
    rw [hask] at h
    cases h
  | refused hask =>
    rw [hask] at h
    cases h
    exact ⟨List.mem_append_right _ List.mem_cons_self, getElem?_concat.mpr (.inr ⟨rfl, rfl⟩)⟩

end Exchange

namespace Limited
variable (millis : Nat) (x : Limited L)

/-- The step of the client that is taken. -/
def action? : Occasion L → Option (Action L)
  | .ask q => some (.ask q)
  | .receive text => some (.receive text)
  | .look k late =>
    match x.exchange.calls[k]? with
    | some ⟨_, some _, .told _⟩ => some (.resume k)
    | some ⟨_, some _, .waiting⟩ => if late then some (.cancel k) else none
    | _ => none
  | .sayGoodbye => some .sayGoodbye
  | .lose => some .lose

/-- What calls of the engine return. -/
def said : Occasion L → List (Nat × Reply)
  | .ask (.call call) =>
    match (x.exchange.client.start call).1 with
    | .ok _ => []
    | .error fault => [(x.exchange.calls.length, .error fault)]
  | .look k late =>
    match x.exchange.calls[k]? with
    | some ⟨.call call, some _, .told outcome⟩ => [(k, replyTo call outcome)]
    | some ⟨.call call, some _, .waiting⟩ => if late then [(k, lateReply millis call)] else []
    | _ => []
  | _ => []

def step (o : Occasion L) : Limited L where
  exchange := (x.action? o).elim x.exchange x.exchange.perform
  replies := x.replies ++ x.said millis o

def run (occasions : List (Occasion L)) : Limited L := occasions.foldl (step millis) {}

variable {millis x}

theorem run_append (occasions more : List (Occasion L)) :
    run millis (occasions ++ more) = more.foldl (step millis) (run millis occasions) :=
  List.foldl_append

theorem run_concat (occasions : List (Occasion L)) (o : Occasion L) :
    run millis (occasions ++ [o]) = (run millis occasions).step millis o :=
  run_append occasions [o]

section Steps
variable {o : Occasion L} {k : Nat} {reply : Reply}

theorem step_of_action {a : Action L} (h : x.action? o = some a) :
    (x.step millis o).exchange = x.exchange.perform a := by
  simp only [step, h, Option.elim_some]

theorem action?_eq_resume (h : x.action? o = some (.resume k)) : ∃ late, o = .look k late := by
  cases o with
  | look k' late =>
    simp only [action?] at h
    split at h
    · cases h
      exact ⟨late, rfl⟩
    · split at h <;> cases h
    · cases h
  | _ => cases h

theorem action?_eq_cancel (h : x.action? o = some (.cancel k)) :
    o = .look k true ∧ ∃ q id, x.exchange.calls[k]? = some ⟨q, some id, .waiting⟩ := by
  cases o with
  | look k' late =>
    simp only [action?] at h
    split at h
    · cases h
    · rename_i q id hget
      cases late with
      | true =>
        cases h
        exact ⟨rfl, q, id, hget⟩
      | false => cases h
    · cases h
  | _ => cases h

theorem said_of_no_action (h : x.action? o = none) : x.said millis o = [] := by
  cases o with
  | look k late =>
    simp only [action?] at h
    unfold said
    split at h
    · cases h
    · rename_i q id hget
      cases late with
      | true => cases h
      | false => cases q <;> simp [hget]
    · rename_i htold hwaits
      dsimp only
      split
      · rename_i hget
        exact absurd hget (htold _ _ _)
      · rename_i hget
        exact absurd hget (hwaits _ _)
      · rfl
  | _ => cases h

/-- What is returned: a refusal, an outcome, or that the time is over. -/
theorem said_cases (h : (k, reply) ∈ x.said millis o) :
    (∃ call fault, o = .ask (.call call) ∧ (x.exchange.client.ask (.call call)).1 = .error fault ∧
      k = x.exchange.calls.length ∧ reply = .error fault) ∨
    (∃ call id outcome, x.action? o = some (.resume k) ∧
      x.exchange.calls[k]? = some ⟨.call call, some id, .told outcome⟩ ∧ reply = replyTo call outcome) ∨
    ∃ call id, x.action? o = some (.cancel k) ∧
      x.exchange.calls[k]? = some ⟨.call call, some id, .waiting⟩ ∧ reply = lateReply millis call := by
  cases o with
  | ask q =>
    cases q with
    | plain request => cases h
    | call call =>
      simp only [said] at h
      split at h
      · cases h
      · rename_i fault hfault
        cases List.mem_singleton.mp h
        exact .inl ⟨call, fault, rfl, hfault, rfl, rfl⟩
  | look k' late =>
    simp only [said] at h
    split at h
    · rename_i call id outcome hget
      cases List.mem_singleton.mp h
      exact .inr (.inl ⟨call, id, outcome, by simp only [action?, hget], hget, rfl⟩)
    · rename_i call id hget
      cases late with
      | true =>
        cases List.mem_singleton.mp h
        exact .inr (.inr ⟨call, id, by simp only [action?, hget, if_true], hget, rfl⟩)
      | false => cases h
    · cases h
  | _ => cases h

end Steps

/-! ## What has been returned -/

/-- The replies are those of the calls that returned, and of those that gave up. -/
structure Ledger (millis : Nat) (x : Limited L) : Prop where
  sound : x.exchange.Sound
  returned : ∀ k outcome call n standing, (k, outcome) ∈ x.exchange.returns →
    x.exchange.calls[k]? = some ⟨.call call, n, standing⟩ → (k, replyTo call outcome) ∈ x.replies
  expired : ∀ k call n, x.exchange.calls[k]? = some ⟨.call call, n, .givenUp⟩ →
    (k, lateReply millis call) ∈ x.replies
  replied : ∀ k reply, (k, reply) ∈ x.replies → ∃ call n,
    (x.exchange.calls[k]? = some ⟨.call call, n, .returned⟩ ∧
      ∃ outcome, (k, outcome) ∈ x.exchange.returns ∧ reply = replyTo call outcome) ∨
    (x.exchange.calls[k]? = some ⟨.call call, n, .givenUp⟩ ∧ reply = lateReply millis call)

namespace Ledger
variable {o : Occasion L} {a : Action L} {k : Nat} {reply : Reply} {call : EngineCall L} {n : Option Nat}

theorem start : Ledger millis ({} : Limited L) where
  sound := Exchange.Sound.start
  returned _ _ _ _ _ h := by cases h
  expired _ _ _ h := by cases h
  replied _ _ h := by cases h

section Step
variable (l : x.Ledger millis) (ha : x.action? o = some a)
include l ha

theorem returned_step {outcome : Except EngineFault Json} {standing : Standing}
    (h : (k, outcome) ∈ (x.exchange.perform a).returns)
    (hget : (x.exchange.perform a).calls[k]? = some ⟨.call call, n, standing⟩) :
    (k, replyTo call outcome) ∈ (x.step millis o).replies := by
  rcases Exchange.mem_returns_cases h with hold | ⟨rfl, q, id, htold, hdone⟩ |
    ⟨q, fault, rfl, hfault, rfl, rfl, hdone⟩
  · obtain ⟨q, n', hreturned⟩ := l.sound.returned k (List.mem_map_of_mem hold)
    cases (Exchange.ended_stays l.sound hreturned (.inl rfl) a).symm.trans hget
    exact List.mem_append_left _ (l.returned k outcome call n _ hold hreturned)
  · cases hdone.symm.trans hget
    obtain ⟨late, rfl⟩ := action?_eq_resume ha
    exact List.mem_append_right _ (by simp [said, htold])
  · cases hdone.symm.trans hget
    obtain rfl : o = .ask (.call call) := by
      cases o with
      | look k' late =>
        simp only [action?] at ha
        split at ha <;> first | cases ha | (split at ha <;> cases ha)
      | _ => cases ha <;> rfl
    change (x.exchange.client.start call).1 = _ at hfault
    exact List.mem_append_right _ (by simp [said, hfault, replyTo])

theorem expired_step (h : (x.exchange.perform a).calls[k]? = some ⟨.call call, n, .givenUp⟩) :
    (k, lateReply millis call) ∈ (x.step millis o).replies := by
  rcases Exchange.givenUp_perform h with hold | ⟨rfl, standing, hget⟩
  · exact List.mem_append_left _ (l.expired k call n hold)
  · obtain ⟨rfl, q, id, hwaits⟩ := action?_eq_cancel ha
    cases hget.symm.trans hwaits
    exact List.mem_append_right _ (by simp [said, hwaits])

theorem replied_step (h : (k, reply) ∈ (x.step millis o).replies) : ∃ call n,
    ((x.exchange.perform a).calls[k]? = some ⟨.call call, n, .returned⟩ ∧
      ∃ outcome, (k, outcome) ∈ (x.exchange.perform a).returns ∧ reply = replyTo call outcome) ∨
    ((x.exchange.perform a).calls[k]? = some ⟨.call call, n, .givenUp⟩ ∧
      reply = lateReply millis call) := by
  rcases List.mem_append.mp h with hold | hnew
  · obtain ⟨more, hmore⟩ := Exchange.returns_perform (e := x.exchange) a
    obtain ⟨call, n, ⟨hget, outcome, hreturned, hreply⟩ | ⟨hget, hreply⟩⟩ := l.replied k reply hold
    · refine ⟨call, n, .inl ⟨Exchange.ended_stays l.sound hget (.inl rfl) a, outcome, ?_, hreply⟩⟩
      exact hmore ▸ List.mem_append_left _ hreturned
    · exact ⟨call, n, .inr ⟨Exchange.ended_stays l.sound hget (.inr rfl) a, hreply⟩⟩
  · rcases said_cases hnew with ⟨call, fault, rfl, hfault, rfl, rfl⟩ |
      ⟨call, id, outcome, hresume, htold, rfl⟩ | ⟨call, id, hcancel, hwaits, rfl⟩
    · cases ha
      obtain ⟨hreturned, hget⟩ := Exchange.returns_of_refused hfault
      exact ⟨call, none, .inl ⟨hget, _, hreturned, rfl⟩⟩
    · cases ha.symm.trans hresume
      have hget : (x.exchange.perform (.resume k)).calls[k]? = some ⟨.call call, some id, .returned⟩ := by
        simp only [Exchange.perform, Exchange.resume, htold]
        exact (Exchange.getElem?_set_of_some htold _).trans (if_pos rfl)
      exact ⟨call, some id, .inl ⟨hget, outcome, Exchange.resume_of_told htold, rfl⟩⟩
    · cases ha.symm.trans hcancel
      have hget : (x.exchange.perform (.cancel k)).calls[k]? = some ⟨.call call, some id, .givenUp⟩ := by
        simp only [Exchange.perform, Exchange.cancel, hwaits]
        exact (Exchange.getElem?_set_of_some hwaits _).trans (if_pos rfl)
      exact ⟨call, some id, .inr ⟨hget, rfl⟩⟩

end Step

theorem step (l : x.Ledger millis) (o : Occasion L) : (x.step millis o).Ledger millis := by
  cases ha : x.action? o with
  | none =>
    have hsame : x.step millis o = x := by
      unfold Limited.step
      rw [ha, said_of_no_action ha]
      simp
    rwa [hsame]
  | some a =>
    have he : (x.step millis o).exchange = x.exchange.perform a := step_of_action ha
    constructor
    · exact he ▸ l.sound.perform a
    · intro k outcome call n standing h hget
      exact l.returned_step ha (he ▸ h) (he ▸ hget)
    · intro k call n h
      exact l.expired_step ha (he ▸ h)
    · intro k reply h
      rw [he]
      exact l.replied_step ha h

end Ledger

theorem ledger_run (occasions : List (Occasion L)) : (run millis occasions).Ledger millis := by
  induction occasions using List.reverseRecOn with
  | nil => exact .start
  | append_singleton occasions o ih =>
    rw [run_concat]
    exact ih.step o

theorem replies_run_append (millis : Nat) (occasions more : List (Occasion L)) :
    ∃ rest, (run millis (occasions ++ more)).replies = (run millis occasions).replies ++ rest := by
  induction more using List.reverseRecOn with
  | nil => exact ⟨[], by simp⟩
  | append_singleton more o ih =>
    obtain ⟨rest, hrest⟩ := ih
    refine ⟨rest ++ (run millis (occasions ++ more)).said millis o, ?_⟩
    rw [← List.append_assoc, run_concat, step, hrest, List.append_assoc]

/-! ## An answer in time, and an answer too late -/

section Answers
variable {k id : Nat} {q : Inquiry L} {outcome : Except EngineFault Json} {standing : Standing}

/-- The outcome is there, or it was returned. -/
def Holds (x : Limited L) (k : Nat) (q : Inquiry L) (id : Nat) (outcome : Except EngineFault Json) : Prop :=
  x.exchange.calls[k]? = some ⟨q, some id, .told outcome⟩ ∨
    x.exchange.calls[k]? = some ⟨q, some id, .returned⟩ ∧ (k, outcome) ∈ x.exchange.returns

theorem Holds.step (h : x.Holds k q id outcome) (l : x.Ledger millis) (o : Occasion L) :
    (x.step millis o).Holds k q id outcome := by
  unfold Holds
  cases ha : x.action? o with
  | none =>
    rw [show (x.step millis o).exchange = x.exchange by simp only [Limited.step, ha, Option.elim_none]]
    exact h
  | some a =>
    rw [step_of_action ha]
    rcases h with htold | ⟨hdone, hreturned⟩
    · -- who has an outcome does not give up any more
      refine Exchange.told_stays l.sound htold ?_
      rintro rfl
      obtain ⟨_, _, _, hwaits⟩ := action?_eq_cancel ha
      cases htold.symm.trans hwaits
    · obtain ⟨more, hmore⟩ := Exchange.returns_perform (e := x.exchange) a
      refine .inr ⟨Exchange.ended_stays l.sound hdone (.inl rfl) a, ?_⟩
      exact hmore ▸ List.mem_append_left _ hreturned

theorem Holds.run {occasions : List (Occasion L)} (h : (run millis occasions).Holds k q id outcome)
    (more : List (Occasion L)) : (Limited.run millis (occasions ++ more)).Holds k q id outcome := by
  induction more using List.reverseRecOn with
  | nil => rwa [List.append_nil]
  | append_singleton more o ih =>
    rw [← List.append_assoc, run_concat]
    exact ih.step (ledger_run _) o

section Replies
variable {call : EngineCall L} (h : x.Holds k (.call call) id outcome) (l : x.Ledger millis)
include h l

/-- A caller that looks for its outcome returns it, whether its time has run out or not. -/
theorem Holds.look (late : Bool) : (k, replyTo call outcome) ∈ (x.step millis (.look k late)).replies := by
  rcases h with htold | ⟨hdone, hreturned⟩
  · exact List.mem_append_right _ (by simp [said, htold])
  · exact List.mem_append_left _ (l.returned k outcome call _ _ hreturned hdone)

theorem Holds.reply_eq {reply : Reply} (hmem : (k, reply) ∈ x.replies) : reply = replyTo call outcome := by
  obtain ⟨call', n, ⟨hget, outcome', hreturned', rfl⟩ | ⟨hget, rfl⟩⟩ := l.replied k reply hmem
  · rcases h with htold | ⟨hdone, hreturned⟩
    · cases htold.symm.trans hget
    · cases hdone.symm.trans hget
      -- a call returns once
      cases List.inj_on_of_nodup_map l.sound.once hreturned' hreturned rfl
      rfl
  · rcases h with htold | ⟨hdone, _⟩
    · cases htold.symm.trans hget
    · cases hdone.symm.trans hget

end Replies

theorem gaveUp_run {occasions : List (Occasion L)}
    (h : (run millis occasions).exchange.calls[k]? = some ⟨q, some id, .givenUp⟩)
    (more : List (Occasion L)) :
    (run millis (occasions ++ more)).exchange.calls[k]? = some ⟨q, some id, .givenUp⟩ := by
  induction more using List.reverseRecOn with
  | nil => rwa [List.append_nil]
  | append_singleton more o ih =>
    rw [← List.append_assoc, run_concat]
    cases ha : (run millis (occasions ++ more)).action? o with
    | none => simpa only [step, ha, Option.elim_none] using ih
    | some a =>
      rw [step_of_action ha]
      exact Exchange.ended_stays (ledger_run _).sound ih (.inr rfl) a

/-- A call that waits is told by its answer. -/
theorem told_of_answer (w : x.exchange.Sound)
    (h : x.exchange.calls[k]? = some ⟨q, some id, .waiting⟩) {text : String}
    {result : Except RemoteError Json} (ht : Incoming.ofText? text = some (.answer id result)) :
    (x.step millis (.receive text)).exchange.calls[k]? =
      some ⟨q, some id, .told (result.mapError RemoteError.toFault)⟩ := by
  rw [step_of_action rfl, Exchange.receive_of_waiting w h ht]
  exact (Exchange.getElem?_set_of_some h k).trans (if_pos rfl)

/-- The answer to a call that does not wait is without effect. -/
theorem receive_of_not_waiting (w : x.exchange.Sound)
    (h : x.exchange.calls[k]? = some ⟨q, some id, standing⟩) (hs : standing ≠ .waiting) {text : String}
    {result : Except RemoteError Json} (ht : Incoming.ofText? text = some (.answer id result)) :
    x.step millis (.receive text) = x := by
  have hsame : x.exchange.perform (.receive text) = x.exchange := by
    have hp := x.exchange.receive_performs text
    change x.exchange.receive text = _
    generalize x.exchange.receive text = e' at hp
    cases hp with
    | answered ht' hmem _ =>
      cases ht.symm.trans ht'
      exact absurd hmem (w.notPending h hs)
    | ignored => rfl
  simp [step, action?, said, hsame]

end Answers

/--
The engine answers a call that makes an object. If the call waits, it returns the name of the object as
soon as its caller looks, however late that is, and it never returns anything else. If the call does not
wait any more, the answer is without effect. A call that was given up has returned that its time is over,
and nothing else is ever returned by it.
-/
theorem created_object_returned_or_dropped (millis : Nat) (before after : List (Occasion L))
    {text name : String} {k id : Nat} {call : EngineCall L} {standing : Standing}
    (hcall : (run millis before).exchange.calls[k]? = some ⟨.call call, some id, standing⟩)
    (hcreates : call.creates?.isSome) (htext : Incoming.brings? text = some (id, name)) :
    let x := run millis (before ++ .receive text :: after)
    (standing = .waiting → (∀ reply, (k, reply) ∈ x.replies → reply = .ok name) ∧
      ∀ mid late rest, after = mid ++ .look k late :: rest → (k, .ok name) ∈ x.replies) ∧
    (standing ≠ .waiting → x = run millis (before ++ after)) ∧
    (standing = .givenUp → (k, lateReply millis call) ∈ (run millis before).replies ∧
      ∀ reply, (k, reply) ∈ x.replies → reply = lateReply millis call) := by
  intro x
  obtain ⟨result, ht, hname⟩ := Incoming.of_brings? htext
  have hreply : replyTo call (.ok result) = .ok name := (replyTo_of_creates hcreates result).trans hname
  have hx : x = run millis ((before ++ [.receive text]) ++ after) := by
    simp only [x, List.append_assoc, List.singleton_append]
  have hl : (run millis before).Ledger millis := ledger_run before
  refine ⟨?_, fun hs => ?_, ?_⟩
  · rintro rfl
    have hholds : (run millis (before ++ [.receive text])).Holds k (.call call) id (.ok result) := by
      rw [run_concat]
      exact .inl (told_of_answer hl.sound hcall ht)
    refine ⟨fun reply hmem => ?_, ?_⟩
    · exact ((hx ▸ hholds.run after).reply_eq (ledger_run _) hmem).trans hreply
    · rintro mid late rest rfl
      have hlooks := (hholds.run mid).look (ledger_run _) late
      rw [hreply, ← run_concat] at hlooks
      obtain ⟨more, hmore⟩ := replies_run_append millis
        ((before ++ [.receive text]) ++ mid ++ [.look k late]) rest
      rw [hx, ← List.append_assoc, List.append_cons, hmore]
      exact List.mem_append_left _ hlooks
  · rw [hx, run_append, run_concat, receive_of_not_waiting hl.sound hcall hs ht, run_append]
  · rintro rfl
    have hgone := gaveUp_run hcall (.receive text :: after)
    refine ⟨hl.expired k call (some id) hcall, fun reply hmem => ?_⟩
    obtain ⟨call', n, ⟨hget, _⟩ | ⟨hget, hreply'⟩⟩ := (ledger_run _).replied k reply hmem
    · cases hgone.symm.trans hget
    · cases hgone.symm.trans hget
      exact hreply'

/-- The answer to a first request for a pipeline. -/
def pipelineMade : String :=
  (Json.mkObject [("id", .ofNat 1), ("jsonrpc", .string "2.0"),
    ("result", .object [("value", .string "pipeline")])]).text

/-- A caller whose time has run out still returns the pipeline if the answer came before it looked. -/
theorem late_look_returns :
    (0, .ok "pipeline") ∈ (run 200 ([.ask (.call (.createPipeline : EngineCall Unit))] ++
      .receive pipelineMade :: [.look 0 true])).replies := by
  have hcall : (run 200 [.ask (.call (.createPipeline : EngineCall Unit))]).exchange.calls[0]? =
      some ⟨.call .createPipeline, some 1, .waiting⟩ := rfl
  have hbrings : Incoming.brings? pipelineMade = some (1, "pipeline") := by decide +kernel
  obtain ⟨hintime, _⟩ :=
    created_object_returned_or_dropped 200 _ [.look 0 true] hcall rfl hbrings
  exact (hintime rfl).2 [] true [] rfl

/-- A pipeline that is made after its caller has given up is neither returned nor released. -/
theorem pipeline_left_behind :
    ¬ ∀ (millis : Nat) (before after : List (Occasion Unit)) (text name : String) (k id : Nat)
      (call : EngineCall Unit) (standing : Standing),
      (run millis before).exchange.calls[k]? = some ⟨.call call, some id, standing⟩ →
      call.creates?.isSome → Incoming.brings? text = some (id, name) →
      let x := run millis (before ++ .receive text :: after)
      (∃ q n, x.exchange.calls[k]? = some ⟨q, n, .returned⟩ ∨
        x.exchange.calls[k]? = some ⟨q, n, .givenUp⟩) →
      (k, .ok name) ∈ x.replies ∨ ∃ r ∈ x.exchange.sent, r.Releases name := by
  intro hclaim
  have hbrings : Incoming.brings? pipelineMade = some (1, "pipeline") := by decide +kernel
  have hgone : (run 200 [.ask (.call (.createPipeline : EngineCall Unit)), .look 0 true]).exchange.calls[0]? =
      some ⟨.call .createPipeline, some 1, .givenUp⟩ := rfl
  obtain ⟨result, ht, _⟩ := Incoming.of_brings? hbrings
  have hsame : run 200 ([.ask (.call .createPipeline), .look 0 true] ++ [.receive pipelineMade]) =
      run 200 [.ask (.call (.createPipeline : EngineCall Unit)), .look 0 true] :=
    (run_concat _ _).trans (receive_of_not_waiting (ledger_run _).sound hgone nofun ht)
  have hno := hclaim 200 _ [] pipelineMade "pipeline" 0 1 .createPipeline .givenUp hgone rfl hbrings
  simp only [hsame] at hno
  rcases hno ⟨_, _, .inr hgone⟩ with h | ⟨r, hr, hrelease⟩
  · cases List.mem_singleton.mp h
  · obtain rfl := List.mem_singleton.mp hr
    exact absurd hrelease.1 (by decide)

end Limited

/-! ## The rehearsal -/

namespace PeerRehearsal
variable {r : PeerRehearsal L} {x : Limited L} {f : Flight L} {call : EngineCall L} {k : Nat}
  (hclient : r.client = x.exchange.client) (hcall : f.call = some call)
include hclient hcall

/-- A rehearsal lets the time of a call run out as a caller does that looks too late. -/
theorem expire_looks (hwaits : x.exchange.calls[k]? = some ⟨.call call, some f.id, .waiting⟩)
    (millis : Nat) :
    (r.expire f millis).client = (x.step millis (.look k true)).exchange.client ∧
      (x.step millis (.look k true)).replies = x.replies ++ [(k, lateReply millis call)] ∧
      (r.expire f millis).landed.get? f.caller =
        some ⟨f.caller, call.operation, lateReply millis call⟩ := by
  have hstep : (x.step millis (.look k true)).exchange.client = x.exchange.client.cancel f.id := by
    simp [Limited.step, Limited.action?, hwaits, Exchange.perform, Exchange.cancel]
  refine ⟨?_, ?_, ?_⟩
  · rw [hstep, ← hclient]
    simp [expire, hcall]
  · simp [Limited.step, Limited.said, hwaits]
  · simp [expire, hcall, lateReply, Table.get?_put_self]

/-- A rehearsal ends a call as a caller does that finds its outcome. -/
theorem land_looks (w : x.exchange.Sound) {outcome : Except EngineFault Json}
    (htold : x.exchange.calls[k]? = some ⟨.call call, some f.id, .told outcome⟩) (millis : Nat)
    (late : Bool) :
    (r.land f outcome).client = (x.step millis (.look k late)).exchange.client ∧
      (x.step millis (.look k late)).replies = x.replies ++ [(k, replyTo call outcome)] ∧
      (r.land f outcome).landed.get? f.caller =
        some ⟨f.caller, call.operation, replyTo call outcome⟩ := by
  have hgone : x.exchange.client.cancel f.id = x.exchange.client :=
    Client.cancel_of_notMem (w.notPending htold nofun)
  have hstep : (x.step millis (.look k late)).exchange.client =
      (x.exchange.client.finish call outcome).2 := by
    simp [Limited.step, Limited.action?, htold, Exchange.perform, Exchange.resume, Client.settle, hgone]
  refine ⟨?_, ?_, ?_⟩
  · rw [hstep, ← hclient]
    simp [land, hcall]
  · simp [Limited.step, Limited.said, htold]
  · cases outcome <;> simp [land, hcall, Client.finish, replyTo, Table.get?_put_self]

end PeerRehearsal

end Rostrum.Rpc
