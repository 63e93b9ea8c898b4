import Mathlib.Data.List.DropRight
import Rostrum.Proofs.Broadcast.Negotiations
import Rostrum.Proofs.Registry.Path

/-!
# What a step does to the candidates of a session

The candidates of a session are cleared when it is stopped and when its current entry is removed.
Between two such events a candidate is submitted, waits in the queue, and is given to the endpoint, by
the negotiation of the session or at once. `Passes` says of every step which part of this it does.
-/

namespace Rostrum

/-- The session a task works for. -/
def Task.session? : Task → Option SessionId
  | .negotiation n _ => some n.session
  | .stop s _ _ => some s
  | .apply s _ _ => some s
  | _ => none

/-- The candidate that a task is giving to an endpoint for a session. -/
def Task.candidate? (s : SessionId) (task : Task) : Option (Endpoint × Candidate) :=
  match task.call? with
  | some (.addCandidate endpoint c) => if task.session? = some s then some (endpoint, c) else none
  | _ => none

/-- Whether a task serves a message of a session. Negotiations go on beside the messages. -/
def Task.serves (s : SessionId) : Task → Bool
  | .stop s' _ _ => s' = s
  | .apply s' _ _ => s' = s
  | _ => false

/-- The candidate of a session that a call submits. -/
def Registry.Call.submitted? (s : SessionId) : Registry.Call → Option Candidate
  | .submit s' c => if s' = s then some c else none
  | _ => none

namespace Broadcast

/-- Whether an event clears the candidates of a session. -/
def Event.clears (s : SessionId) : Event → Bool
  | .called d => d.call.clears d.before s
  | _ => false

/-- The candidate of a session whose call to the engine an event issues, with the endpoint. -/
def Event.applied? (s : SessionId) : Event → Option (Endpoint × Candidate)
  | .issued _ task => task.candidate? s
  | _ => none

/-- The candidate of a session that an event submits. -/
def Event.submitted? (s : SessionId) : Event → Option Candidate
  | .called d => d.call.submitted? s
  | _ => none

/-- What happened since the candidates of a session were last cleared. -/
def since (s : SessionId) (log : List Event) : List Event := log.rtakeWhile fun event => !event.clears s

/-- The candidates given to endpoints for a session since then, each with the endpoint. -/
def applied (s : SessionId) (log : List Event) : List (Endpoint × Candidate) :=
  (since s log).filterMap (Event.applied? s)

/-- The candidates submitted for a session since then. -/
def submitted (s : SessionId) (log : List Event) : List Candidate :=
  (since s log).filterMap (Event.submitted? s)

/-- The session whose message a request is. -/
def Request.session? : Request → Option SessionId
  | .prepare s _ _ => some s
  | .stop s _ => some s
  | .submit s _ => some s
  | _ => none

/-- Whether a message of a session is still being served. -/
def serves (b : Broadcast) (s : SessionId) : Bool := b.tasks.values.any (Task.serves s)

/-- The messages of a session are served one after the other. -/
def Serial (s : SessionId) : Broadcast → List Action → Prop
  | _, [] => True
  | b, a :: rest =>
    (∀ q, a = .request q → q.session? = some s → b.serves s = false) ∧ Serial s (b.step a) rest

instance decidableSerial (s : SessionId) : ∀ b actions, Decidable (Serial s b actions)
  | _, [] => isTrue trivial
  | b, a :: rest =>
    have := decidableSerial s (b.step a) rest
    have : Decidable (∀ q, a = .request q → q.session? = some s → b.serves s = false) :=
      match a with
      | .request q => decidable_of_iff (q.session? = some s → b.serves s = false)
          ⟨fun h _ hq => by cases hq; exact h, fun h => h q rfl⟩
      | .turn _ => isTrue nofun
      | .reply _ _ => isTrue nofun
    inferInstanceAs (Decidable (_ ∧ _))

theorem applying_of_call {task : Task} {endpoint : Endpoint} {c : Candidate}
    (h : task.call? = some (.addCandidate endpoint c)) :
    (∃ n, task = .negotiation n (.applying endpoint c)) ∨ ∃ s, task = .apply s endpoint c := by
  cases task with
  | negotiation n stage =>
    cases stage with
    | applying =>
      cases h
      exact Or.inl ⟨n, rfl⟩
    | obtainingMix request => cases request <;> cases h
    | connecting =>
      cases hrole : n.role <;> simp [Task.call?, NegotiationStage.call?, hrole] at h
    | _ => cases h
  | apply s =>
    cases h
    exact Or.inr ⟨s, rfl⟩
  | shutdown stage =>
    cases stage with
    | stopping => cases h
    | withdrawing stage => cases stage <;> cases h
  | mixRequest stage => cases stage <;> cases h
  | mixWithdrawal stage => cases stage <;> cases h
  | stop => cases h

theorem candidate?_cases {s : SessionId} {task : Task} {x : Endpoint × Candidate}
    (h : task.candidate? s = some x) :
    (∃ n, task = .negotiation n (.applying x.1 x.2) ∧ n.session = s) ∨ task = .apply s x.1 x.2 := by
  unfold Task.candidate? at h
  split at h
  · rename_i endpoint c hcall
    split at h
    · rename_i hsession
      cases h
      rcases applying_of_call hcall with ⟨n, rfl⟩ | ⟨s', rfl⟩
      · exact Or.inl ⟨n, rfl, Option.some.inj hsession⟩
      · exact Or.inr (by rw [Option.some.inj hsession])
    · cases h
  · cases h

theorem candidate?_applying (n : Negotiation) (endpoint : Endpoint) (c : Candidate) (s : SessionId) :
    (Task.negotiation n (.applying endpoint c)).candidate? s =
      if n.session = s then some (endpoint, c) else none := by
  simp [Task.candidate?, Task.call?, NegotiationStage.call?, Task.session?]

theorem candidate?_apply (s' : SessionId) (endpoint : Endpoint) (c : Candidate) (s : SessionId) :
    (Task.apply s' endpoint c).candidate? s = if s' = s then some (endpoint, c) else none := by
  simp [Task.candidate?, Task.call?, Task.session?]

theorem candidate?_negotiation {n : Negotiation} {stage : NegotiationStage} {s : SessionId}
    (h : ∀ endpoint c, stage ≠ .applying endpoint c) :
    (some (Task.negotiation n stage)).bind (Task.candidate? s) = none := by
  cases hc : (Task.negotiation n stage).candidate? s with
  | none => exact hc
  | some x =>
    rcases candidate?_cases hc with ⟨_, heq, _⟩ | heq <;> cases heq
    exact absurd rfl (h _ _)

/-- What a step does to the candidates of a session. -/
inductive Passes (s : SessionId) (r : Registry) :
    Option Task → Option Reply → List Registry.Call → Option Task → Prop where
  | clears {before reply calls after} : (∃ d ∈ r.log calls, d.call.clears d.before s) →
      (∀ c, .submit s c ∉ calls) → after.bind (Task.candidate? s) = none →
      (r.after calls).buffer.queues.get? s = none → Passes s r before reply calls after
  | leaves {before reply calls after} : (∀ d ∈ r.log calls, d.call.clears d.before s = false) →
      (∀ c, .submit s c ∉ calls) → after.bind (Task.candidate? s) = none →
      Registry.Steady s r (r.after calls) → Passes s r before reply calls after
  | buffers {c} : r.answer (.submit s c) = .destination .buffered →
      Passes s r none none [.submit s c] none
  | applies {c endpoint} : r.answer (.submit s c) = .destination (.apply endpoint c) →
      Passes s r none none [.submit s c] (some (.apply s endpoint c))
  | pops {n stage endpoint text c} : n.session = s → stage.Drains endpoint →
      r.answer (.nextCandidate s n.attempt) = .candidate (some c) →
      Passes s r (some (.negotiation n stage)) (some (.ok text)) [.nextCandidate s n.attempt]
        (some (.negotiation n (.applying endpoint c)))
  | drains {n stage endpoint text} : n.session = s → stage.Drains endpoint →
      r.answer (.nextCandidate s n.attempt) = .candidate none →
      Passes s r (some (.negotiation n stage)) (some (.ok text)) [.nextCandidate s n.attempt]
        (some (.negotiation n (.subscribing endpoint)))

section Passes
variable {s : SessionId} {r : Registry}

theorem Disposes.no_candidate {d : Option Teardown} {es : List Entry} {after : Option Task}
    (h : Disposes d es after) : after.bind (Task.candidate? s) = none := by
  have hteardown : ∀ {task : Task} {d}, task.teardown? = some d → task.candidate? s = none := by
    intro task d hd
    cases hc : task.candidate? s with
    | none => rfl
    | some x => rcases candidate?_cases hc with ⟨_, rfl, _⟩ | rfl <;> cases hd
  cases h with
  | goesOn _ ht | begins _ _ _ ht => exact hteardown ht
  | ends _ _ hmix =>
    cases after with
    | none => rfl
    | some task =>
      cases hc : task.candidate? s with
      | none => exact hc
      | some x => rcases candidate?_cases hc with ⟨_, rfl, _⟩ | rfl <;> cases hmix _ rfl

variable (w : r.WellFormed)
include w

theorem Passes.of_call {before after : Option Task} {reply : Option Reply} {call : Registry.Call}
    (hleaves : call.Leaves r s) (hafter : after.bind (Task.candidate? s) = none) :
    Passes s r before reply [call] after := by
  refine .leaves ?_ ?_ hafter (hleaves.steady w)
  · intro d hd
    obtain rfl := List.mem_singleton.mp hd
    exact hleaves.clears
  · intro c hc
    exact hleaves.submit c (List.mem_singleton.mp hc).symm

omit w in
theorem Passes.of_nothing {before after : Option Task} {reply : Option Reply}
    (hafter : after.bind (Task.candidate? s) = none) : Passes s r before reply [] after :=
  .leaves nofun nofun hafter (.refl s r)

theorem Passes.of_stops {before after : Option Task} {reply : Option Reply}
    {sessions : List SessionId} (hafter : after.bind (Task.candidate? s) = none) :
    Passes s r before reply (sessions.map .stop) after := by
  have hsubmit : ∀ c, Registry.Call.submit s c ∉ sessions.map .stop := by simp
  by_cases hs : s ∈ sessions
  · refine .clears ?_ hsubmit hafter (by rw [Registry.queue_stops, if_pos hs])
    have hstop : Registry.Call.stop s ∈ (r.log (sessions.map .stop)).map Registry.Deed.call := by
      rw [Registry.log_calls]
      exact List.mem_map_of_mem hs
    obtain ⟨d, hd, hcall⟩ := List.mem_map.mp hstop
    exact ⟨d, hd, by simp [hcall, Registry.Call.clears]⟩
  · refine .leaves ?_ hsubmit hafter (Registry.steady_stops w hs)
    intro d hd
    obtain ⟨s', hs', hcall⟩ := List.mem_map.mp (Registry.call_of_mem_log hd)
    have hne : s' ≠ s := fun h => hs (h ▸ hs')
    simp [← hcall, Registry.Call.clears, hne]

omit w in
/-- A negotiation changes no endpoint, and of candidates it asks only for the next one. -/
theorem HasEntry.asks_leaves {n : Negotiation} {stage : NegotiationStage} {reply : Option Reply}
    {call : Registry.Call} (hentry : HasEntry r n stage) (hcall : stage.asks n reply = some call)
    (hsame : call.stores ∨ r.next call = r) : call.Leaves r s where
  clears := by
    unfold NegotiationStage.asks at hcall
    split at hcall <;> cases hcall <;> rfl
  submit c := by
    rintro rfl
    unfold NegotiationStage.asks at hcall
    split at hcall <;> cases hcall
  next a heq := by
    subst heq
    exact hsame.resolve_left Bool.false_ne_true
  endpoint s' a endpoint e heq he := by
    subst heq
    unfold NegotiationStage.asks at hcall
    split at hcall <;> cases hcall
    -- the endpoint was just made, so the entry has none yet
    obtain ⟨x, hx, _, hnone, _⟩ := hentry
    cases hx.symm.trans he
    exact hnone

theorem HasEntry.asks_steady {n : Negotiation} {stage : NegotiationStage} {reply : Option Reply}
    (hentry : HasEntry r n stage) (hask : ∀ call ∈ stage.asks n reply, call.stores ∨ r.next call = r) :
    Registry.Steady s r (r.after (stage.asks n reply).toList) := by
  cases h : stage.asks n reply with
  | none => exact .refl s r
  | some call => exact (hentry.asks_leaves h (hask call h)).steady w

/-- What a negotiation asks for when it gives up does not touch its candidates, its removal may. -/
theorem Passes.of_givesUp {n : Negotiation} {stage : NegotiationStage} {reply : Option Reply}
    {after : Option Task} (hentry : HasEntry r n stage)
    (hask : ∀ call ∈ stage.asks n reply, call.stores ∨ r.next call = r)
    (hafter : after.bind (Task.candidate? s) = none) :
    Passes s r (some (.negotiation n stage)) reply
      ((stage.asks n reply).toList ++ [.remove n.session n.attempt]) after := by
  have hasks : ∀ call ∈ (stage.asks n reply).toList, call.Leaves r s := fun call hcall =>
    hentry.asks_leaves (Option.mem_toList.mp hcall) (hask call (Option.mem_toList.mp hcall))
  have hsteady : Registry.Steady s r (r.after (stage.asks n reply).toList) := hentry.asks_steady w hask
  have hsubmit : ∀ c, Registry.Call.submit s c ∉
      (stage.asks n reply).toList ++ [.remove n.session n.attempt] := by
    intro c hc
    rcases List.mem_append.mp hc with hc | hc
    · exact (hasks _ hc).submit c rfl
    · cases List.mem_singleton.mp hc
  have w' := w.after (stage.asks n reply).toList
  generalize hr' : r.after (stage.asks n reply).toList = r' at *
  -- the removal clears the queue if the attempt is still the current one
  cases hclears : Registry.Call.clears r' s (.remove n.session n.attempt) with
  | true =>
    refine .clears ⟨⟨r', .remove n.session n.attempt⟩, ?_, hclears⟩ hsubmit hafter ?_
    · rw [Registry.log_append, hr']
      exact List.mem_append_right _ (List.mem_singleton_self _)
    · obtain ⟨hs, hcurrent⟩ : n.session = s ∧ r'.isCurrent s n.attempt := by
        simpa [Registry.Call.clears] using hclears
      rw [Registry.after_append, hr']
      exact hs ▸ Registry.queue_next_remove (hs ▸ hcurrent)
  | false =>
    refine .leaves ?_ hsubmit hafter ?_
    · intro d hd
      rw [Registry.log_append, hr'] at hd
      rcases List.mem_append.mp hd with hd | hd
      · cases hcall : stage.asks n reply with
        | none =>
          rw [hcall] at hd
          cases hd
        | some call =>
          rw [hcall] at hd
          obtain rfl := List.mem_singleton.mp hd
          exact (hasks call (by simp [hcall])).clears
      · obtain rfl := List.mem_singleton.mp hd
        exact hclears
    · rw [Registry.after_append, hr']
      have hremoves : (Registry.Call.remove n.session n.attempt).Leaves r' s := by
        refine ⟨hclears, ?_, ?_, ?_⟩
        · rintro c ⟨⟩
        · rintro a ⟨⟩
        · rintro s' a endpoint e ⟨⟩
      exact hsteady.trans (hremoves.steady w')

end Passes

theorem Move.passes {r : Registry} {before after : Option Task} {reply : Option Reply}
    {calls : List Registry.Call} (m : Move r before reply calls after) (w : r.WellFormed)
    (hentry : ∀ n stage, before = some (.negotiation n stage) → stage.isLive → HasEntry r n stage)
    (s : SessionId) : Passes s r before reply calls after := by
  cases m with
  | enters => exact .of_call w ⟨rfl, nofun, nofun, nofun⟩ (candidate?_negotiation (fun _ _ h => by cases h))
  | refused => exact .of_call w ⟨rfl, nofun, nofun, nofun⟩ rfl
  | @buffers s' c hans =>
    by_cases hs : s' = s
    · subst hs
      exact .buffers hans
    · exact .of_call w ⟨rfl, fun _ h => by cases h; exact hs rfl, nofun, nofun⟩ rfl
  | @applies s' c endpoint hans =>
    by_cases hs : s' = s
    · subst hs
      exact .applies hans
    · exact .of_call w ⟨rfl, fun _ h => by cases h; exact hs rfl, nofun, nofun⟩
        ((candidate?_apply _ _ _ _).trans (if_neg hs))
  | disposes _ hd => exact .of_stops w hd.no_candidate
  | waits | obtains =>
    exact .of_nothing (candidate?_negotiation (fun _ _ h => by cases h))
  | goesOn _ hdrained => exact .of_nothing (candidate?_negotiation (fun _ _ h => by cases h; cases hdrained))
  | @endpointMade n mix id =>
    have hask : NegotiationStage.asks n (.creatingEndpoint mix) (some (.ok id)) = some _ := rfl
    exact .of_call w ((hentry n _ rfl rfl).asks_leaves hask (Or.inl rfl))
      (candidate?_negotiation (fun _ _ h => by cases h))
  | portMade => exact .of_call w ⟨rfl, nofun, nofun, nofun⟩ (candidate?_negotiation (fun _ _ h => by cases h))
  | @applying n stage endpoint text c hdrains hans =>
    by_cases hs : n.session = s
    · subst hs
      exact .pops rfl hdrains hans
    · exact .of_call w ⟨rfl, nofun, fun _ h => by cases h; exact absurd rfl hs, nofun⟩
        ((candidate?_applying _ _ _ _).trans (if_neg hs))
  | @drained n stage endpoint text hdrains hans =>
    by_cases hs : n.session = s
    · subst hs
      exact .drains rfl hdrains hans
    · exact .of_call w ⟨rfl, nofun, fun _ h => by cases h; exact absurd rfl hs, nofun⟩
        (candidate?_negotiation (fun _ _ h => by cases h))
  | completes => exact .of_call w ⟨rfl, nofun, nofun, nofun⟩ rfl
  | givesUp hlive hask hd => exact .of_givesUp w (hentry _ _ rfl hlive) hask hd.no_candidate

/-- Who clears the candidates of a session stops it, or gives up its current negotiation. -/
theorem Move.clears_cases {r : Registry} {before after : Option Task} {reply : Option Reply}
    {calls : List Registry.Call} (m : Move r before reply calls after) {s : SessionId}
    {d : Registry.Deed} (hd : d ∈ r.log calls) (hclears : d.call.clears d.before s) :
    .stop s ∈ calls ∨ ∃ n stage, before = some (.negotiation n stage) ∧ stage.isLive ∧
      n.session = s ∧ (∀ call ∈ stage.asks n reply, call.stores ∨ r.next call = r) ∧
      calls = (stage.asks n reply).toList ++ [.remove s n.attempt] ∧
      d = ⟨r.after (stage.asks n reply).toList, .remove s n.attempt⟩ ∧
      d.before.isCurrent s n.attempt := by
  cases m with
  | enters | refused | buffers | applies | endpointMade | portMade | applying | drained | completes =>
    obtain rfl := List.mem_singleton.mp hd
    cases hclears
  | waits | obtains | goesOn => cases hd
  | disposes =>
    obtain ⟨s', hs', hcall⟩ := List.mem_map.mp (Registry.call_of_mem_log hd)
    have hs : s' = s := by simpa [← hcall, Registry.Call.clears] using hclears
    exact Or.inl (hs ▸ List.mem_map_of_mem hs')
  | @givesUp n stage reply after hlive hask =>
    rw [Registry.log_append] at hd
    rcases List.mem_append.mp hd with hd | hd
    · have hno := NegotiationStage.not_takes_of_asks (Option.mem_toList.mp (Registry.call_of_mem_log hd))
      generalize d.call = call at hclears hno
      cases call with
      | stop | remove => exact absurd rfl hno
      | _ => cases hclears
    · obtain rfl := List.mem_singleton.mp hd
      obtain ⟨rfl, hcurrent⟩ : n.session = s ∧
          (r.after (stage.asks n reply).toList).isCurrent s n.attempt := by
        simpa [Registry.Call.clears] using hclears
      exact Or.inr ⟨n, stage, rfl, hlive, rfl, hask, rfl, rfl, hcurrent⟩

/-- The current entry of a session that was not stopped stays unless its candidates are cleared. -/
theorem Passes.continues {s : SessionId} {r : Registry} {before after : Option Task}
    {reply : Option Reply} {calls : List Registry.Call} (h : Passes s r before reply calls after)
    (w : r.WellFormed) (hquiet : ∀ d ∈ r.log calls, d.call.clears d.before s = false) {e : Entry}
    (he : r.entry? s = some e) (hs : ¬ e.stopped) :
    ∃ e', Registry.entry? (r.after calls) s = some e' ∧ e.Continues e' := by
  cases h with
  | clears hclears =>
    obtain ⟨d, hd, hc⟩ := hclears
    rw [hquiet d hd] at hc
    cases hc
  | leaves _ _ _ hsteady => exact hsteady.continues e he hs
  | buffers hans =>
    refine ⟨e, ?_, .refl hs⟩
    change Registry.entry? (r.next _) s = _
    rw [(Registry.next_of_buffered hans).1]
    exact he
  | applies hans =>
    refine ⟨e, ?_, .refl hs⟩
    change Registry.entry? (r.next _) s = _
    rw [(Registry.next_of_applied hans).1]
    exact he
  | pops _ _ hans =>
    obtain ⟨_, _, _, _, hnext⟩ := Registry.next_of_popped hans
    refine ⟨e, ?_, .refl hs⟩
    change Registry.entry? (r.next _) s = _
    rw [hnext]
    exact he
  | @drains n _ _ _ _ _ hans =>
    obtain ⟨x, hrun, _, hnext⟩ := Registry.next_of_drained hans
    have hentry := w.entry?_modifyAttempt (Registry.attempt?_of_running hrun)
      (fun e => { e with endpointReady := true }) s
    rw [he, Option.map_some] at hentry
    change ∃ e', Registry.entry? (r.next _) s = some e' ∧ _
    rw [hnext]
    refine ⟨_, hentry, ?_⟩
    split
    · exact ⟨rfl, hs, fun _ => rfl, fun _ => id⟩
    · exact .refl hs

end Broadcast

end Rostrum
