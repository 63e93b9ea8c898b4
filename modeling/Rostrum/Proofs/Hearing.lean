import Rostrum.Proofs.Broadcast.Listening
import Rostrum.Proofs.Venue

/-!
# What a client hears of the engine's candidates

A negotiation listens to the engine before its offer is answered, and a candidate goes straight into the
queue of its session, past the task of the negotiation. That the client reads the answer first rests on one
order: the answer is in the queue before the search for candidates is asked for.

Main statement: when the engine finds candidates of an endpoint only after the search for them was asked
for, every candidate that a client reads is one of an endpoint that was made for a negotiation of its own
session, and the client has read the answer of the same negotiation before. It does not matter what other
sessions do meanwhile, how the negotiations of the session overlap, or whether the queue overflows.
-/

namespace Rostrum

namespace Coordinator

theorem shutdownFrom_notices (t : TaskId) (order : List SessionId) (c : Coordinator) :
    (c.shutdownFrom t order).notices = [] := by
  induction order generalizing c with
  | nil =>
    unfold shutdownFrom shutdownMix
    split <;> rfl
  | cons s left ih =>
    unfold shutdownFrom
    split
    · rfl
    · exact ih _

/-- Only a negotiation has something to say when its turn has come. -/
theorem stepTurn_notices {c : Coordinator} {t : TaskId} {task : Task}
    (hno : ∀ n stage, task ≠ .negotiation n stage) : (c.stepTurn t task).notices = [] := by
  unfold stepTurn
  split
  · exact absurd rfl (hno _ _)
  · exact absurd rfl (hno _ _)
  · unfold shutdownWithdrawn
    split <;> rfl
  · unfold mixRequested
    split <;> rfl
  · unfold mixWithdrawn
    split <;> rfl
  · rfl

/-- Only a negotiation has something to say when the engine has replied. -/
theorem stepReply_notices {c : Coordinator} {t : TaskId} {task : Task} {reply : Reply}
    (hno : ∀ n stage, task ≠ .negotiation n stage) : (c.stepReply t task reply).notices = [] := by
  unfold stepReply
  cases task with
  | negotiation n stage => exact absurd rfl (hno n stage)
  | stop s leaving d => exact stopTask_notices ..
  | apply => rfl
  | shutdown stage =>
    cases stage with
    | stopping d left =>
      dsimp only
      split
      · rfl
      · exact shutdownFrom_notices ..
    | withdrawing =>
      dsimp only [shutdownWithdrawn]
      split <;> rfl
  | mixRequest =>
    dsimp only [mixRequested]
    split <;> rfl
  | mixWithdrawal =>
    dsimp only [mixWithdrawn]
    split <;> rfl

end Coordinator

namespace Broadcast

/-! ## What a step says -/

/-- A step says nothing, or that a role was refused, or the answer of the negotiation that takes it. -/
inductive Says (was left : Option Task) : List Notice → Prop where
  | nothing : (∀ n endpoint answer, left ≠ some (.negotiation n (.gathering endpoint answer))) →
      Says was left []
  | refusal {s : SessionId} {role : Role} {text : String} :
      (∀ n endpoint answer, left ≠ some (.negotiation n (.gathering endpoint answer))) →
      Says was left [⟨s, .rejected role text⟩]
  | answer {n : Negotiation} {stage : NegotiationStage} {endpoint : Endpoint} {answer : String} :
      was = some (.negotiation n stage) → left = some (.negotiation n (.gathering endpoint answer)) →
      Says was left [⟨n.session, .accepted n.role answer⟩]

theorem says_of_giveUp (c : Coordinator) (n : Negotiation) (fault : NegotiationFault) (e : Entry)
    (objects : List ObjectId) (was : Option Task) :
    Says was (c.giveUp n fault e objects).task.ongoing? (c.giveUp n fault e objects).notices := by
  have hreleases : ∀ n' endpoint answer, (c.giveUp n fault e objects).task.ongoing? ≠
      some (.negotiation n' (.gathering endpoint answer)) := by
    intro n' endpoint answer
    rw [Coordinator.giveUp_ongoing?]
    split <;> exact fun h => by cases h
  rcases c.giveUp_notices n fault e objects with hquiet | ⟨_, _, hsaid⟩
  · rw [hquiet]
    exact .nothing hreleases
  · rw [hsaid]
    exact .refusal hreleases

theorem Conducts.saying {c : Coordinator} {n : Negotiation} {stage : NegotiationStage}
    {reply : Option Reply} {result : StepResult} (h : Conducts c n stage reply result) :
    Says (some (.negotiation n stage)) result.task.ongoing? result.notices := by
  cases h with
  | waits => exact .nothing fun _ _ _ h => by cases h
  | goesOn stage' =>
    cases stage' with
    | gathering endpoint answer => exact .answer rfl rfl
    | _ => exact .nothing fun _ _ _ h => by cases h
  | completes => exact .nothing fun _ _ _ h => by cases h
  | givesUp => exact says_of_giveUp ..

theorem serve_says (c : Coordinator) (t : TaskId) (q : Request) :
    Says none (serve c t q).task.ongoing? (serve c t q).notices := by
  have hfirst : ∀ n endpoint answer,
      (serve c t q).task.ongoing? ≠ some (.negotiation n (.gathering endpoint answer)) := by
    intro n endpoint answer hleft
    cases serve_begins hleft
  cases q with
  | prepare s role offer =>
    rcases prepare_spec c s role offer with ⟨a, snapshot, c', hp, _⟩ | ⟨fault, hp⟩
    · simp only [serve, hp] at hfirst ⊢
      exact .nothing hfirst
    · simp only [serve, hp] at hfirst ⊢
      exact .refusal hfirst
  | stop s leaving =>
    rw [show (serve c t (.stop s leaving)).notices = [] from Coordinator.stopTask_notices ..]
    exact .nothing hfirst
  | shutdown order =>
    rw [show (serve c t (.shutdown order)).notices = [] from Coordinator.shutdownFrom_notices ..]
    exact .nothing hfirst
  | submit s candidate =>
    have hquiet : (serve c t (.submit s candidate)).notices = [] := by
      unfold serve
      dsimp only
      split <;> rfl
    rw [hquiet]
    exact .nothing hfirst
  | requestMix =>
    have hquiet : (serve c t .requestMix).notices = [] := by
      dsimp only [serve, Coordinator.mixRequested]
      split <;> rfl
    rw [hquiet]
    exact .nothing hfirst
  | withdrawMix =>
    have hquiet : (serve c t .withdrawMix).notices = [] := by
      dsimp only [serve, Coordinator.mixWithdrawn]
      split <;> rfl
    rw [hquiet]
    exact .nothing hfirst

theorem Episode.Occurs.saying {x : Episode} (hx : x.Occurs) (h : x.before.Consistent) :
    Says x.was x.left x.result.notices := by
  by_cases hn : ∃ n stage, x.was = some (.negotiation n stage)
  · obtain ⟨n, stage, hwas⟩ := hn
    cases hlive : stage.isLive with
    | true =>
      rw [hwas]
      exact (hx.conducts h hwas hlive).saying
    | false =>
      cases stage with
      | releasing fault e o rest =>
        obtain ⟨c, _, _, hresult, _⟩ := hx.releases hwas
        rw [left, hresult]
        exact says_of_giveUp ..
      | _ => cases hlive
  · have hno : ∀ n stage, x.was ≠ some (.negotiation n stage) := fun n stage hwas => hn ⟨n, stage, hwas⟩
    have hquiet : x.result.notices = [] → Says x.was x.left x.result.notices := by
      intro hnotices
      rw [hnotices]
      refine .nothing fun n endpoint answer hleft => ?_
      rcases hx.negotiation_origin h hleft with ⟨stage, hwas⟩ | ⟨_, hstage, _⟩
      · exact hno n stage hwas
      · cases hstage
    cases hx with
    | @request b q _ => exact serve_says b.coordinator ⟨b.nextTask⟩ q
    | turn =>
      exact hquiet (Coordinator.stepTurn_notices fun n stage htask => hno n stage (congrArg some htask))
    | reply =>
      exact hquiet (Coordinator.stepReply_notices fun n stage htask => hno n stage (congrArg some htask))

/-! ## Where a candidate comes from -/

/-- The endpoint for which the engine is to search for candidates from an event on. -/
def Event.gathers? : Event → Option Endpoint
  | .issued _ task =>
    match task.call? with
    | some (.gather endpoint) => some endpoint
    | _ => none
  | _ => none

def gathered (log : List Event) : List Endpoint := log.filterMap Event.gathers?

/-- Who hears of a candidate that the engine finds for an endpoint. -/
def findings (b : Broadcast) (endpoint : Endpoint) (candidate : Candidate) : List Notice :=
  ((subscriptions b.log).filter fun listener => listener.2 = endpoint).map
    fun listener => ⟨listener.1, .candidate candidate⟩

theorem gathering_of_call {task : Task} {endpoint : Endpoint}
    (h : task.call? = some (.gather endpoint)) :
    ∃ n answer, task = .negotiation n (.gathering endpoint answer) := by
  obtain ⟨n, stage, rfl⟩ := negotiation_of_call h rfl
  cases stage with
  | gathering endpoint answer =>
    cases h
    exact ⟨n, answer, rfl⟩
  | obtainingMix request => cases request <;> cases h
  | connecting endpoint port =>
    cases hrole : n.role <;> simp [Task.call?, NegotiationStage.call?, hrole] at h
  | _ => cases h

theorem mem_gathered {log : List Event} {endpoint : Endpoint} (h : endpoint ∈ gathered log) :
    ∃ t n answer, .issued t (.negotiation n (.gathering endpoint answer)) ∈ log := by
  obtain ⟨event, he, hgathers⟩ := List.mem_filterMap.mp h
  cases event with
  | called | replied => cases hgathers
  | issued t task =>
    simp only [Event.gathers?] at hgathers
    split at hgathers
    · rename_i hcall
      cases hgathers
      obtain ⟨n, answer, rfl⟩ := gathering_of_call hcall
      exact ⟨t, n, answer, he⟩
    · cases hgathers

/-- A session that hears of a candidate has a negotiation of which the engine was to search for it. -/
theorem searching_of_findings (actions : List Action) {endpoint : Endpoint} {candidate : Candidate}
    (hgathered : endpoint ∈ gathered (run {} actions).log) {notice : Notice}
    (hnotice : notice ∈ findings (run {} actions) endpoint candidate) :
    notice.message = .candidate candidate ∧ ∃ t n answer, n.session = notice.session ∧
      .issued t (.negotiation n (.gathering endpoint answer)) ∈ (run {} actions).log ∧
      (n.attempt, .endpoint, endpoint.id) ∈ madeFor (run {} actions).log ∧
      (run {} actions).Prepared n.session n.attempt := by
  obtain ⟨⟨s, endpoint'⟩, hfiltered, rfl⟩ := List.mem_map.mp hnotice
  obtain ⟨hlistens, hsame⟩ := List.mem_filter.mp hfiltered
  obtain rfl : endpoint' = endpoint := of_decide_eq_true hsame
  obtain ⟨t, n, answer, hsearches⟩ := mem_gathered hgathered
  obtain ⟨t', task, hsubscribes, hcall⟩ := mem_subscriptions.mp hlistens
  obtain ⟨n', rfl, hsession⟩ := subscribing_of_call hcall
  have he := enrolled actions
  have hmade := he.made t n _ endpoint' hsearches (.gathering answer)
  have hmade' := he.made t' n' _ endpoint' hsubscribes .subscribing
  -- an endpoint is made for one attempt, and an attempt belongs to one session
  obtain ⟨hattempt, _⟩ := (accounts actions).madeFor_eq hmade hmade'
  have hprepared := he.own t n _ hsearches
  have hprepared' := he.own t' n' _ hsubscribes
  rw [← hattempt] at hprepared'
  have hown : n.session = n'.session := (accounted actions).session_eq hprepared hprepared'
  exact ⟨rfl, t, n, answer, hown.trans hsession, hsearches, hmade, hprepared⟩

end Broadcast

/-! ## Where a message comes from -/

/-- Where a change of the queues comes from. -/
inductive Source where
  | negotiation (attempt : Attempt)
  | endpoint (endpoint : Endpoint)
  | elsewhere
deriving DecidableEq

namespace Source

/-- The messages that some changes send to a session, each with where it comes from. -/
def heard (s : SessionId) (changes : List (Source × Outbound.Op)) : List (Source × ServerMessage) :=
  changes.filterMap fun change => (change.2.sent? s).map fun message => (change.1, message)

/-- Some notices from one source. -/
def sends (source : Source) (notices : List Notice) : List (Source × Outbound.Op) :=
  notices.map fun notice => (source, .send notice.session notice.message)

section Heard
variable {s : SessionId}

theorem heard_append (changes more : List (Source × Outbound.Op)) :
    heard s (changes ++ more) = heard s changes ++ heard s more :=
  List.filterMap_append

theorem heard_messages (changes : List (Source × Outbound.Op)) :
    (heard s changes).map Prod.snd = (changes.map Prod.snd).filterMap (Outbound.Op.sent? s) := by
  simp only [heard, List.map_filterMap, List.filterMap_map, Option.map_map]
  congr 1
  funext change
  cases h : change.2.sent? s <;> simp [h]

theorem mem_heard_sends {source source' : Source} {notices : List Notice} {m : ServerMessage} :
    (source', m) ∈ heard s (sends source notices) ↔ source' = source ∧ ⟨s, m⟩ ∈ notices := by
  simp only [heard, sends, List.mem_filterMap, List.mem_map, Option.map_eq_some_iff]
  constructor
  · rintro ⟨_, ⟨⟨s', m'⟩, hnotice, rfl⟩, m'', hsent, heq⟩
    simp only [Outbound.Op.sent?, Option.ite_none_right_eq_some] at hsent
    obtain ⟨rfl, hm⟩ := hsent
    cases hm
    cases heq
    exact ⟨rfl, hnotice⟩
  · rintro ⟨rfl, hnotice⟩
    exact ⟨_, ⟨_, hnotice, rfl⟩, m, by simp [Outbound.Op.sent?], rfl⟩

end Heard

end Source

theorem Outbound.run_sends (o : Outbound) (source : Source) (notices : List Notice) :
    o.run ((Source.sends source notices).map Prod.snd) = o.deliver notices := by
  induction notices generalizing o with
  | nil => rfl
  | cons notice rest ih => exact ih _

namespace Broadcast.Episode

def source (x : Episode) : Source :=
  match x.was with
  | some (.negotiation n _) => .negotiation n.attempt
  | _ => .elsewhere

/-- How a step changes the queues. -/
def changes (x : Episode) : List (Source × Outbound.Op) :=
  Source.sends x.source x.result.notices ++
    match x.result.task with
    | .done (.left s) => [(.elsewhere, .remove s)]
    | _ => []

section Changes
variable (x : Episode)

theorem changes_cases : (∃ s, x.result.task = .done (.left s) ∧
      x.changes = Source.sends x.source x.result.notices ++ [(.elsewhere, .remove s)]) ∨
    ((∀ s, x.result.task ≠ .done (.left s)) ∧ x.changes = Source.sends x.source x.result.notices) := by
  unfold changes
  split
  · rename_i s hleft
    exact .inl ⟨s, hleft, rfl⟩
  · rename_i hno
    exact .inr ⟨hno, List.append_nil _⟩

theorem run_changes (o : Outbound) : o.run (x.changes.map Prod.snd) = o.follow x.result := by
  rcases x.changes_cases with ⟨s, hleft, hchanges⟩ | ⟨hno, hchanges⟩
  · rw [hchanges, List.map_append, Outbound.run_append, Outbound.run_sends, Outbound.follow, hleft]
    rfl
  · rw [hchanges, Outbound.run_sends]
    exact ((Outbound.follow_cases o x.result).resolve_left fun ⟨s, hleft, _⟩ => hno s hleft).2.symm

/-- A session hears what a step says to it. -/
theorem heard_changes (s : SessionId) :
    Source.heard s x.changes = Source.heard s (Source.sends x.source x.result.notices) := by
  rcases x.changes_cases with ⟨s', _, hchanges⟩ | ⟨_, hchanges⟩
  · rw [hchanges, Source.heard_append]
    exact List.append_nil _
  · rw [hchanges]

end Changes

end Broadcast.Episode

/-! ## What has been heard -/

namespace Broadcast

/--
A candidate comes from an endpoint that was made for a negotiation of the session, and the answer of the
negotiation is among what was heard earlier.
-/
def Explained (b : Broadcast) (s : SessionId) (earlier : List (Source × ServerMessage))
    (source : Source) : Prop :=
  ∃ endpoint a role answer, source = .endpoint endpoint ∧ (a, .endpoint, endpoint.id) ∈ madeFor b.log ∧
    b.Prepared s a ∧ (.negotiation a, .accepted role answer) ∈ earlier

/-- What a session has heard so far. -/
structure Told (b : Broadcast) (s : SessionId) (past : List (Source × ServerMessage)) : Prop where
  answered : ∀ t n endpoint answer, .issued t (.negotiation n (.gathering endpoint answer)) ∈ b.log →
    n.session = s → (.negotiation n.attempt, .accepted n.role answer) ∈ past
  explained : ∀ i source candidate, past[i]? = some (source, .candidate candidate) →
    b.Explained s (past.take i) source

namespace Told
variable {b : Broadcast} {s : SessionId} {past more : List (Source × ServerMessage)}

/-- What is heard now is explained by what was heard before. -/
theorem explained_append {b' : Broadcast} (told : b.Told s past)
    (hkept : ∀ earlier source, b.Explained s earlier source → b'.Explained s earlier source)
    (hmore : ∀ source candidate, (source, .candidate candidate) ∈ more → b'.Explained s past source)
    (i : Nat) (source : Source) (candidate : Candidate)
    (h : (past ++ more)[i]? = some (source, .candidate candidate)) :
    b'.Explained s ((past ++ more).take i) source := by
  rcases Nat.lt_or_ge i past.length with hlt | hge
  · rw [List.getElem?_append_left hlt] at h
    rw [List.take_append_of_le_length (Nat.le_of_lt hlt)]
    exact hkept _ _ (told.explained i source candidate h)
  · rw [List.getElem?_append_right hge] at h
    obtain ⟨endpoint, a, role, answer, hsource, hmade, hprepared, hanswer⟩ :=
      hmore source candidate (List.mem_of_getElem? h)
    refine ⟨endpoint, a, role, answer, hsource, hmade, hprepared, ?_⟩
    rw [List.take_append, List.take_of_length_le hge]
    exact List.mem_append_left _ hanswer

theorem append (told : b.Told s past)
    (hmore : ∀ source candidate, (source, .candidate candidate) ∈ more → b.Explained s past source) :
    b.Told s (past ++ more) where
  answered t n endpoint answer hm hs := List.mem_append_left _ (told.answered t n endpoint answer hm hs)
  explained := told.explained_append (fun _ _ h => h) hmore

theorem step {x : Episode} (hx : x.Occurs) (h : x.before.Consistent) (told : x.before.Told s past) :
    x.after.Told s (past ++ Source.heard s x.changes) := by
  have hsays := hx.saying h
  rw [x.heard_changes]
  refine ⟨fun t n endpoint answer hm hs => ?_, told.explained_append ?_ ?_⟩
  · rcases issued_cases_take hm with hold | ⟨_, hleft, _⟩
    · exact List.mem_append_left _ (told.answered t n endpoint answer hold hs)
    · -- the step that asks for the search has said the answer
      refine List.mem_append_right _ (Source.mem_heard_sends.mpr ?_)
      change x.left = _ at hleft
      rw [hleft] at hsays
      generalize hwas : x.was = was at hsays
      generalize x.result.notices = notices at hsays
      cases hsays with
      | nothing hno => exact absurd rfl (hno n endpoint answer)
      | refusal hno => exact absurd rfl (hno n endpoint answer)
      | @answer n' stage endpoint' answer' hn hgathers =>
        cases hgathers
        subst hn hs
        exact ⟨by rw [Episode.source, hwas], List.mem_singleton_self _⟩
  · rintro earlier source ⟨endpoint, a, role, answer, hsource, hmade, hprepared, hanswer⟩
    exact ⟨endpoint, a, role, answer, hsource, madeFor_subset_take hmade, hprepared.after, hanswer⟩
  · -- no step says a candidate
    intro source candidate hm
    obtain ⟨_, hnotice⟩ := Source.mem_heard_sends.mp hm
    generalize x.result.notices = notices at hsays hnotice
    cases hsays with
    | nothing => cases hnotice
    | refusal | answer => cases List.mem_singleton.mp hnotice

theorem found {actions : List Action} {endpoint : Endpoint} {candidate : Candidate}
    (told : (run {} actions).Told s past) (hgathered : endpoint ∈ gathered (run {} actions).log) :
    (run {} actions).Told s (past ++
      Source.heard s (Source.sends (.endpoint endpoint) (findings (run {} actions) endpoint candidate))) := by
  refine told.append fun source candidate' hm => ?_
  obtain ⟨rfl, hnotice⟩ := Source.mem_heard_sends.mp hm
  obtain ⟨_, t, n, answer, hown, hsearches, hmade, hprepared⟩ :=
    searching_of_findings actions hgathered hnotice
  rw [hown] at hprepared
  exact ⟨endpoint, n.attempt, n.role, answer, rfl, hmade, hprepared,
    told.answered t n endpoint answer hsearches hown⟩

end Told

end Broadcast

namespace Venue
open Broadcast (Action Episode madeFor)

/-- What happens next: an operation of the venue, or the engine finds a candidate for an endpoint. -/
inductive Happening where
  | op (op : Op)
  | found (endpoint : Endpoint) (candidate : Candidate)

variable (limit : Nat) (v : Venue)

def occur : Happening → Venue
  | .op op => v.perform limit op
  | .found endpoint candidate =>
    { v with outbound := v.outbound.deliver (v.broadcast.findings endpoint candidate) }

def occurAll (happenings : List Happening) : Venue := happenings.foldl (occur limit) v

/-- How the queues change by what happens. -/
def changes : Happening → List (Source × Outbound.Op)
  | .op op =>
    match op.action? limit, op with
    | some a, _ => (v.broadcast.episode? a).toList.flatMap Episode.changes
    | none, .text s content => Source.sends .elsewhere [⟨s, .error (unreadable content)⟩]
    | none, .queue change => [(.elsewhere, change)]
    | none, .act _ => []
  | .found endpoint candidate =>
    Source.sends (.endpoint endpoint) (v.broadcast.findings endpoint candidate)

def trace (v : Venue) : List Happening → List (Source × Outbound.Op)
  | [] => []
  | happening :: rest => v.changes limit happening ++ (v.occur limit happening).trace rest

/-- The engine finds candidates only for endpoints for which the search was asked for. -/
def Searches (v : Venue) : List Happening → Prop
  | [] => True
  | .op op :: rest => (v.perform limit op).Searches rest
  | .found endpoint candidate :: rest =>
    endpoint ∈ Broadcast.gathered v.broadcast.log ∧ (v.occur limit (.found endpoint candidate)).Searches rest

/-- Whether a message is sent to a session that no step says and no candidate is. -/
def Happening.sendsTo (s : SessionId) : Happening → Bool
  | .op (.queue change) => (change.sent? s).isSome
  | _ => false

variable {limit v}

theorem changes_of_action? {op : Op} {a : Action} (ha : op.action? limit = some a) :
    v.changes limit (.op op) = (v.broadcast.episode? a).toList.flatMap Episode.changes := by
  simp only [changes, ha]

theorem changes_of_unreadable {s : SessionId} {content : String}
    (hnone : (Op.text s content).action? limit = none) :
    v.changes limit (.op (.text s content)) = Source.sends .elsewhere [⟨s, .error (unreadable content)⟩] := by
  simp only [changes, hnone]

theorem changes_queue (change : Outbound.Op) :
    v.changes limit (.op (.queue change)) = [(.elsewhere, change)] :=
  rfl

theorem outbound_occur (happening : Happening) :
    (v.occur limit happening).outbound = v.outbound.run ((v.changes limit happening).map Prod.snd) := by
  cases happening with
  | found => exact (Outbound.run_sends ..).symm
  | op op =>
    change (v.perform limit op).outbound = _
    rcases perform_cases limit v op with
      ⟨a, ha, hperform⟩ | ⟨s, content, rfl, hnone, hperform⟩ | ⟨change, rfl, hperform⟩
    · rw [hperform, changes_of_action? ha]
      rcases act_cases v a with ⟨x, hx, hact⟩ | ⟨hno, hact⟩
      · simp only [hact, hx, Option.toList_some, List.flatMap_singleton, Episode.run_changes]
      · rw [hact, hno]
        rfl
    · rw [hperform, changes_of_unreadable hnone, Outbound.run_sends]
    · rw [hperform]
      rfl

theorem outbound_occurAll (happenings : List Happening) :
    (v.occurAll limit happenings).outbound =
      v.outbound.run ((v.trace limit happenings).map Prod.snd) := by
  induction happenings generalizing v with
  | nil => rfl
  | cons happening rest ih =>
    rw [trace, List.map_append, Outbound.run_append, ← outbound_occur]
    exact ih

theorem broadcast_occur (limit : Nat) {actions : List Action} (hv : v.broadcast = Broadcast.run {} actions)
    (happening : Happening) : ∃ actions', (v.occur limit happening).broadcast = Broadcast.run {} actions' := by
  cases happening with
  | found => exact ⟨actions, hv⟩
  | op op =>
    refine ⟨actions ++ (op.action? limit).toList, ?_⟩
    rw [Broadcast.run_append_run, ← hv]
    exact broadcast_perform op

theorem broadcast_occurAll (limit : Nat) {actions : List Action} (hv : v.broadcast = Broadcast.run {} actions)
    (happenings : List Happening) :
    ∃ actions', (v.occurAll limit happenings).broadcast = Broadcast.run {} actions' := by
  induction happenings generalizing v actions with
  | nil => exact ⟨actions, hv⟩
  | cons happening rest ih =>
    obtain ⟨actions', hnext⟩ := broadcast_occur limit hv happening
    exact ih hnext

theorem sound_occurAll (w : v.outbound.Sound) (happenings : List Happening) :
    (v.occurAll limit happenings).outbound.Sound := by
  rw [outbound_occurAll]
  exact w.run _

section Told
variable {actions : List Action} (hv : v.broadcast = Broadcast.run {} actions) {s : SessionId}
  {past : List (Source × ServerMessage)}
include hv

theorem told_perform (told : v.broadcast.Told s past) {op : Op} (hop : (Happening.op op).sendsTo s = false) :
    (v.perform limit op).broadcast.Told s (past ++ Source.heard s (v.changes limit (.op op))) := by
  rcases perform_cases limit v op with
    ⟨a, ha, hperform⟩ | ⟨s', content, rfl, hnone, hperform⟩ | ⟨change, rfl, hperform⟩
  · rw [hperform, changes_of_action? ha]
    rcases act_cases v a with ⟨x, hx, hact⟩ | ⟨hno, hact⟩
    · obtain ⟨_, hoccurs, hbefore, _⟩ := Broadcast.step?_of_episode? hx
      rw [hact, hx, Option.toList_some, List.flatMap_singleton]
      rw [← hbefore] at told hv
      exact told.step hoccurs (hv ▸ Broadcast.consistent actions)
    · rw [hact, hno]
      exact (List.append_nil past).symm ▸ told
  · rw [hperform, changes_of_unreadable hnone]
    refine told.append fun source candidate hm => ?_
    cases List.mem_singleton.mp (Source.mem_heard_sends.mp hm).2
  · rw [hperform, changes_queue]
    refine told.append fun source candidate hm => ?_
    obtain ⟨_, hchange, hsent⟩ := List.mem_filterMap.mp hm
    obtain rfl := List.mem_singleton.mp hchange
    -- what is sent from elsewhere is sent to others
    have hnone : change.sent? s = none :=
      Option.not_isSome_iff_eq_none.mp (Bool.eq_false_iff.mp hop)
    simp only [hnone, Option.map_none] at hsent
    cases hsent

theorem told_occurAll (told : v.broadcast.Told s past) {happenings : List Happening}
    (hsearches : v.Searches limit happenings)
    (hsends : ∀ happening ∈ happenings, happening.sendsTo s = false) :
    (v.occurAll limit happenings).broadcast.Told s
      (past ++ Source.heard s (v.trace limit happenings)) := by
  induction happenings generalizing v actions past with
  | nil => exact (List.append_nil past).symm ▸ told
  | cons happening rest ih =>
    obtain ⟨hfirst, hrest⟩ := List.forall_mem_cons.mp hsends
    rw [trace, Source.heard_append, ← List.append_assoc]
    obtain ⟨actions', hnext⟩ := broadcast_occur limit hv happening
    cases happening with
    | op op => exact ih hnext (told_perform hv told hfirst) hsearches hrest
    | found endpoint candidate =>
      obtain ⟨hgathered, hlater⟩ := hsearches
      refine ih hnext ?_ hlater hrest
      change v.broadcast.Told s _
      rw [hv] at told hgathered ⊢
      simp only [changes, hv]
      exact told.found hgathered

end Told

/-- A reader that a session has got reads the beginning of what was sent to the session since then. -/
theorem reads_of_trace {o : Outbound} (w : o.Sound) (s : SessionId) (changes : List (Source × Outbound.Op)) :
    (o.register s).2.readBy (o.register s).1 (changes.map Prod.snd) <+:
      (Source.heard s changes).map Prod.snd := by
  have hread := ((Outbound.register_attached w s).reads (changes.map Prod.snd)).1
  rw [List.nil_append] at hread
  have hsent : Outbound.sentTo s (o.register s).1 (changes.map Prod.snd) <+:
      (Source.heard s changes).map Prod.snd := by
    rw [Source.heard_messages, Outbound.sentTo]
    exact (List.takeWhile_prefix _).filterMap _
  exact ((List.prefix_append _ _).trans hread).trans hsent

/--
A session gets its queue before anything is prepared for it, and nobody but its negotiations and the engine
sends to it. Then every candidate that its client reads is one of an endpoint that was made for a
negotiation of this session and of no other, and the client has read the answer of the same negotiation
before.
-/
theorem answer_before_candidates (limit size : Nat) (before after : List Happening) (s : SessionId)
    (hnew : ∀ a, ¬ ((opened size).occurAll limit before).broadcast.Prepared s a)
    (hsearches : (((opened size).occurAll limit before).perform limit (.queue (.register s))).Searches
      limit after)
    (hsends : ∀ happening ∈ after, happening.sendsTo s = false) :
    let o := ((opened size).occurAll limit before).outbound
    let v := ((opened size).occurAll limit before).perform limit (.queue (.register s))
    let heard := Source.heard s (v.trace limit after)
    let reads := v.outbound.readBy (o.register s).1 ((v.trace limit after).map Prod.snd)
    let b := (v.occurAll limit after).broadcast
    (v.occurAll limit after).outbound = v.outbound.run ((v.trace limit after).map Prod.snd) ∧
      reads <+: heard.map Prod.snd ∧
      ∀ (i : Nat) candidate, reads[i]? = some (.candidate candidate) →
        ∃ endpoint a, heard[i]? = some (.endpoint endpoint, .candidate candidate) ∧
          (a, .endpoint, endpoint.id) ∈ madeFor b.log ∧ b.Prepared s a ∧
          (∀ s' a', (a', .endpoint, endpoint.id) ∈ madeFor b.log → b.Prepared s' a' → s' = s ∧ a' = a) ∧
          ∃ j < i, ∃ role answer, heard[j]? = some (.negotiation a, .accepted role answer) ∧
            reads[j]? = some (.accepted role answer) := by
  intro o v heard reads b
  have hopened : (opened size).broadcast = Broadcast.run {} [] := rfl
  obtain ⟨actions, hbefore⟩ := broadcast_occurAll limit hopened before
  have hv : v.broadcast = Broadcast.run {} actions := hbefore
  -- no answer is owed to the session yet
  have hstart : v.broadcast.Told s [] := by
    refine ⟨fun t n endpoint answer hm hs => ?_, fun _ _ _ h => by cases h⟩
    rw [hv] at hm
    have hprepared := (Broadcast.enrolled actions).own t n _ hm
    rw [hs, ← hbefore] at hprepared
    exact absurd hprepared (hnew n.attempt)
  have told : b.Told s heard := told_occurAll hv hstart hsearches hsends
  obtain ⟨actions', hafter⟩ := broadcast_occurAll limit hv after
  have hprefix : reads <+: heard.map Prod.snd :=
    reads_of_trace (sound_occurAll (Outbound.sound_ofSize size) before) s _
  have hread_eq : ∀ {i : Nat} {m : ServerMessage}, i < reads.length →
      (heard.map Prod.snd)[i]? = some m → reads[i]? = some m := by
    intro i m hlt hm
    rw [List.prefix_iff_eq_take.mp hprefix, List.getElem?_take_of_lt hlt]
    exact hm
  refine ⟨outbound_occurAll after, hprefix, fun i candidate hread => ?_⟩
  have hsaid : (heard.map Prod.snd)[i]? = some (.candidate candidate) := by
    obtain ⟨rest, hrest⟩ := hprefix
    rw [← hrest, List.getElem?_append_left (List.getElem?_eq_some_iff.mp hread).1, hread]
  rw [List.getElem?_map] at hsaid
  obtain ⟨⟨source, m⟩, hheard, rfl⟩ := Option.map_eq_some_iff.mp hsaid
  obtain ⟨endpoint, a, role, answer, rfl, hmade, hprepared, hanswer⟩ :=
    told.explained i source candidate hheard
  refine ⟨endpoint, a, hheard, hmade, hprepared, fun s' a' hmade' hprepared' => ?_, ?_⟩
  · rw [show b = _ from hafter] at hmade hmade' hprepared hprepared'
    obtain ⟨rfl, _⟩ := (Broadcast.accounts actions').madeFor_eq hmade' hmade
    exact ⟨(Broadcast.accounted actions').session_eq hprepared' hprepared, rfl⟩
  · obtain ⟨j, hj⟩ := List.mem_iff_getElem?.mp hanswer
    have hji : j < i := by
      have hlt := (List.getElem?_eq_some_iff.mp hj).1
      rw [List.length_take] at hlt
      omega
    rw [List.getElem?_take_of_lt hji] at hj
    have hlt : j < reads.length := hji.trans (List.getElem?_eq_some_iff.mp hread).1
    exact ⟨j, hji, role, answer, hj, hread_eq hlt (by rw [List.getElem?_map, hj]; rfl)⟩

/-- The line of the candidate that a message brings. -/
def lineOf? : ServerMessage → Option String
  | .candidate candidate => some candidate.line
  | _ => none

theorem candidate_of_lineOf? {m : Option ServerMessage} {line : String} (h : m.bind lineOf? = some line) :
    ∃ candidate, m = some (.candidate candidate) ∧ candidate.line = line := by
  obtain ⟨m, rfl, hm⟩ := Option.bind_eq_some_iff.mp h
  cases m with
  | candidate candidate => exact ⟨candidate, rfl, Option.some.inj hm⟩
  | _ => cases hm

/-- A presenter reads its answer, then a candidate that the engine found before the search came to its end. -/
theorem candidate_read_after_answer :
    let after : List Happening := [.op (.act (.request (.prepare ⟨1⟩ .presenter "offer"))),
      .op (.act (.turn ⟨0⟩)), .op (.act (.reply ⟨0⟩ (.ok "pipeline"))),
      .op (.act (.reply ⟨0⟩ (.ok "mixer"))), .op (.act (.reply ⟨0⟩ (.ok "endpoint"))),
      .op (.act (.reply ⟨0⟩ (.ok "port"))), .op (.act (.reply ⟨0⟩ (.ok ""))),
      .op (.act (.reply ⟨0⟩ (.ok ""))), .op (.act (.reply ⟨0⟩ (.ok "answer"))),
      .found ⟨⟨"endpoint"⟩⟩ { line := "found" }, .op (.queue (.receive ⟨0⟩)),
      .op (.queue (.receive ⟨0⟩))]
    let v := (opened 2).perform 4096 (.queue (.register ⟨1⟩))
    let reads := v.outbound.readBy ⟨0⟩ ((v.trace 4096 after).map Prod.snd)
    ∃ candidate role answer, reads[1]? = some (.candidate candidate) ∧ candidate.line = "found" ∧
      reads[0]? = some (.accepted role answer) := by
  intro after v reads
  have hnew : ∀ a, ¬ ((opened 2).occurAll 4096 []).broadcast.Prepared ⟨1⟩ a := fun a h => by cases h
  have hsearches : v.Searches 4096 after := ⟨by decide +kernel, trivial⟩
  have hfound : reads[1]?.bind lineOf? = some "found" := by decide +kernel
  obtain ⟨candidate, hread, hline⟩ := candidate_of_lineOf? hfound
  obtain ⟨_, _, hall⟩ :=
    answer_before_candidates 4096 2 [] after ⟨1⟩ hnew hsearches (by decide)
  obtain ⟨_, _, _, _, _, _, j, hj, role, answer, _, hanswer⟩ := hall 1 _ hread
  obtain rfl : j = 0 := by omega
  exact ⟨candidate, role, answer, hread, hline, hanswer⟩

end Venue

end Rostrum
