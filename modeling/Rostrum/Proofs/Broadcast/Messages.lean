import Mathlib.Data.List.DropRight
import Rostrum.Broadcast.Hub
import Rostrum.Proofs.Broadcast.Conduct

/-!
# What a session has sent

The messages of a session stand among the requests of a run. A text is read and then served like the
request that it stands for; a text that cannot be read changes nothing. What a session is to be follows
from the messages since it last asked to be stopped: the first of them that asks for a role gives the
role, and all candidates among them are meant for the endpoint that is made then.
-/

namespace Rostrum

namespace ClientMessage

def role? : ClientMessage → Option Role
  | .join role _ => some role
  | _ => none

def candidate? : ClientMessage → Option Candidate
  | .candidate c => some c
  | _ => none

def isStop : ClientMessage → Bool
  | .stop => true
  | _ => false

/-- What a message asks of the coordinator. -/
def request (s : SessionId) : ClientMessage → Broadcast.Request
  | .join role offer => .prepare s role offer
  | .stop => .stop s false
  | .candidate c => .submit s c

end ClientMessage

namespace Broadcast

/-- What a session has sent since it last asked to be stopped. -/
def sinceStop (messages : List ClientMessage) : List ClientMessage :=
  messages.rtakeWhile fun m => !m.isStop

/-- The role that was asked for first since then. -/
def roleAsked (messages : List ClientMessage) : Option Role :=
  (sinceStop messages).findSome? ClientMessage.role?

/-- The candidates sent since then. -/
def sent (messages : List ClientMessage) : List Candidate :=
  (sinceStop messages).filterMap ClientMessage.candidate?

/-- The message of a session that an action serves. -/
def Action.message? (s : SessionId) : Action → Option ClientMessage
  | .request (.prepare s' role offer) => if s' = s then some (.join role offer) else none
  | .request (.stop s' _) => if s' = s then some .stop else none
  | .request (.submit s' c) => if s' = s then some (.candidate c) else none
  | _ => none

def messages (s : SessionId) (actions : List Action) : List ClientMessage :=
  actions.filterMap (Action.message? s)

/-- What comes next: the client of a session sends a text, or something else happens. -/
inductive Input where
  | text (content : String)
  | action (action : Action)

/-- What is done at an input. A text that cannot be read does nothing; `serve_of_text` is about the others. -/
def Input.action? (limit : Nat) (s : SessionId) : Input → Option Action
  | .text content => (ClientMessage.decode limit content).toOption.map fun m => .request (m.request s)
  | .action a => some a

section Lists
variable (sofar : List ClientMessage) (m : ClientMessage)

theorem sinceStop_append : sinceStop (sofar ++ [m]) = if m.isStop then [] else sinceStop sofar ++ [m] := by
  unfold sinceStop
  rw [List.rtakeWhile_concat]
  cases m.isStop <;> rfl

theorem roleAsked_append :
    roleAsked (sofar ++ [m]) = if m.isStop then none else (roleAsked sofar).or m.role? := by
  unfold roleAsked
  rw [sinceStop_append]
  split
  · rfl
  · rw [List.findSome?_append, List.findSome?_singleton]

theorem sent_append :
    sent (sofar ++ [m]) = if m.isStop then [] else sent sofar ++ m.candidate?.toList := by
  unfold sent
  rw [sinceStop_append]
  split
  · rfl
  · rw [List.filterMap_append]
    cases h : m.candidate? <;> simp [h]

theorem messages_append (s : SessionId) (actions more : List Action) :
    messages s (actions ++ more) = messages s actions ++ messages s more :=
  List.filterMap_append

theorem messages_singleton (s : SessionId) (a : Action) : messages s [a] = (a.message? s).toList := by
  unfold messages
  cases h : a.message? s <;> simp [h]

end Lists

theorem message?_cases {a : Action} {s : SessionId} {m : ClientMessage} (h : a.message? s = some m) :
    (∃ role offer, m = .join role offer ∧ a = .request (.prepare s role offer)) ∨
      (m = .stop ∧ ∃ leaving, a = .request (.stop s leaving)) ∨
      ∃ c, m = .candidate c ∧ a = .request (.submit s c) := by
  unfold Action.message? at h
  split at h
  · split at h <;> cases h
    rename_i hs
    exact Or.inl ⟨_, _, rfl, by rw [hs]⟩
  · split at h <;> cases h
    rename_i hs
    exact Or.inr (Or.inl ⟨rfl, _, by rw [hs]⟩)
  · split at h <;> cases h
    rename_i hs
    exact Or.inr (Or.inr ⟨_, rfl, by rw [hs]⟩)
  · cases h

theorem Episode.Occurs.calls_of_request {x : Episode} (hx : x.Occurs) {q : Request}
    (ha : x.action = .request q) :
    x.was = none ∧ x.calls = requestCalls x.before.coordinator q := by
  cases hx with
  | request =>
    cases ha
    exact ⟨rfl, rfl⟩
  | turn | reply => cases ha

/-! ## Texts -/

section Texts
variable {limit : Nat} {s : SessionId} {text : String}

/-- A text that can be read is served like the request it stands for. -/
theorem serve_of_text (c : Coordinator) (t : TaskId) {m : ClientMessage}
    (h : ClientMessage.decode limit text = .ok m) :
    (serve c t (m.request s)).coordinator = (c.dispatch limit s text).coordinator ∧
    (serve c t (m.request s)).notices = (c.dispatch limit s text).notices ∧
    (serve c t (m.request s)).task.ongoing? =
      ((c.dispatch limit s text).negotiation.map fun n => .negotiation n .prepared).or
        (c.dispatch limit s text).own.ongoing? := by
  unfold Coordinator.dispatch
  rw [h]
  cases m with
  | join role offer =>
    simp only [Coordinator.obey, ClientMessage.request, serve]
    obtain ⟨fault | n, notices, c'⟩ := c.prepare s role offer <;> simp [Progress.ongoing?]
  | stop =>
    simp only [Coordinator.obey, ClientMessage.request, serve]
    obtain ⟨d | _, c'⟩ := c.stop s <;> simp [Coordinator.stopTask, Progress.ongoing?]
  | candidate candidate =>
    simp only [Coordinator.obey, ClientMessage.request, serve]
    obtain ⟨task | _, c'⟩ := c.submit s candidate <;> exact ⟨rfl, rfl, rfl⟩

/-- A text that cannot be read is answered, and that is all. -/
theorem dispatch_of_unreadable (c : Coordinator) {fault : DecodeFault}
    (h : ClientMessage.decode limit text = .error fault) :
    c.dispatch limit s text =
      { coordinator := c, notices := [⟨s, .error (unreadable text)⟩] } := by
  unfold Coordinator.dispatch
  rw [h]

end Texts

/-! ## Runs and their messages -/

theorem message?_of_no_episode {b : Broadcast} {a : Action} (h : b.episode? a = none) (s : SessionId) :
    a.message? s = none := by
  cases a with
  | turn | reply => rfl
  | request q =>
    cases q with
    | prepare | stop | submit => simp [episode?, step?, request?] at h
    | _ => rfl

/-- What is kept by every step, with the messages of a session so far, holds of every run. -/
theorem messages_induction {s : SessionId} {P : List ClientMessage → Broadcast → Prop}
    (start : List Action) {actions : List Action} (hstart : P [] (run {} start))
    (hstep : ∀ (sofar : List ClientMessage) (x : Episode), P sofar x.before → x.Occurs →
      (∃ earlier later, actions = earlier ++ x.action :: later ∧
        x.before = run {} (start ++ earlier) ∧ x.after = run {} (start ++ earlier ++ [x.action])) →
      P (sofar ++ (x.action.message? s).toList) x.after) :
    P (messages s actions) (run {} (start ++ actions)) := by
  -- on the last action: what comes before it is a run of its own, with fewer messages
  induction actions using List.reverseRecOn with
  | nil => rwa [List.append_nil]
  | append_singleton actions a ih =>
    have hpast := ih fun sofar x hp hx ⟨earlier, later, hactions, hruns⟩ =>
      hstep sofar x hp hx ⟨earlier, later ++ [a], by rw [hactions]; simp, hruns⟩
    rw [messages_append, messages_singleton, ← List.append_assoc, run_append]
    cases h : (run {} (start ++ actions)).episode? a with
    | none =>
      rw [step_of_no_episode h, message?_of_no_episode h s]
      simpa using hpast
    | some x =>
      obtain ⟨_, hoccurs, hbefore, rfl⟩ := step?_of_episode? h
      rw [step_of_episode? h]
      refine hstep _ x (hbefore ▸ hpast) hoccurs ⟨actions, [], rfl, hbefore, ?_⟩
      rw [run_append, step_of_episode? h]

end Broadcast

end Rostrum
