import Rostrum.Proofs.Broadcast.Exchanges

/-!
# The script of a negotiation

A negotiation that has its mix makes an endpoint and a port, connects them, applies candidates, listens
to the engine, passes the offer on, and starts the search for candidates. `Negotiation.script` lists
these calls. What a negotiation has exchanged when it comes to a stage is told by `Built`; when it stops
there, with whatever reply, it leaves a beginning of the script of which at most the last call failed.
-/

namespace Rostrum

open Exchange

namespace Negotiation
variable (n : Negotiation) (mix : SharedMix) (endpoint : Endpoint) (port : MixerPort)

/-- The call that joins an endpoint to the mix: a presenter is heard by it, a viewer hears it. -/
def link : EngineCall SessionId :=
  match n.role with
  | .presenter => .connect endpoint.id port.id
  | .viewer => .connect port.id endpoint.id

/-- The calls after which an endpoint is part of the mix. -/
def opening : List (EngineCall SessionId) :=
  [.createEndpoint mix.pipeline, .createPort mix.mixer, n.link endpoint port]

/-- The calls of a negotiation that builds on a mix, if nothing stops it. -/
def script (candidates : List Candidate) : List (EngineCall SessionId) :=
  n.opening mix endpoint port ++ candidates.map (.addCandidate endpoint) ++
    [.subscribe endpoint n.session, .processOffer endpoint n.offer, .gather endpoint]

end Negotiation

theorem Negotiation.script_creates {n : Negotiation} {mix : SharedMix} {endpoint : Endpoint}
    {port : MixerPort} {candidates : List Candidate} {call : EngineCall SessionId}
    (h : call ∈ n.script mix endpoint port candidates) :
    call.creates? ≠ some .pipeline ∧ call.creates? ≠ some .mixer := by
  simp only [script, opening, List.cons_append, List.nil_append, List.mem_cons,
    List.mem_append, List.mem_map, List.not_mem_nil, or_false] at h
  rcases h with rfl | rfl | rfl | ⟨candidate, _, rfl⟩ | rfl | rfl | rfl
  case inr.inr.inl => cases hrole : n.role <;> simp [link, hrole, EngineCall.creates?]
  all_goals simp [EngineCall.creates?]

namespace Broadcast

/-- The calls of the script that precede a stage of a negotiation. -/
inductive Precedes (n : Negotiation) (mix : SharedMix) (endpoint : Endpoint) (port : MixerPort)
    (applied : List Candidate) : NegotiationStage → List (EngineCall SessionId) → Prop where
  | creatingEndpoint : Precedes n mix endpoint port applied (.creatingEndpoint mix) []
  | creatingPort : Precedes n mix endpoint port applied (.creatingPort mix endpoint)
      [.createEndpoint mix.pipeline]
  | connecting : Precedes n mix endpoint port applied (.connecting endpoint port)
      [.createEndpoint mix.pipeline, .createPort mix.mixer]
  | applying (candidate : Candidate) :
      Precedes n mix endpoint port applied (.applying endpoint candidate)
        (n.opening mix endpoint port ++ applied.map (.addCandidate endpoint))
  | subscribing : Precedes n mix endpoint port applied (.subscribing endpoint)
      (n.opening mix endpoint port ++ applied.map (.addCandidate endpoint))
  | offering : Precedes n mix endpoint port applied (.offering endpoint)
      (n.opening mix endpoint port ++ applied.map (.addCandidate endpoint) ++
        [.subscribe endpoint n.session])
  | gathering (answer : String) : Precedes n mix endpoint port applied (.gathering endpoint answer)
      (n.opening mix endpoint port ++ applied.map (.addCandidate endpoint) ++
        [.subscribe endpoint n.session, .processOffer endpoint n.offer])

/-- How a negotiation that builds goes on when a call has succeeded. -/
inductive Advances : NegotiationStage → String → NegotiationStage → Prop where
  | endpointMade {mix id} : Advances (.creatingEndpoint mix) id (.creatingPort mix ⟨⟨id⟩⟩)
  | portMade {mix endpoint id} : Advances (.creatingPort mix endpoint) id (.connecting endpoint ⟨⟨id⟩⟩)
  | applies {stage endpoint text candidate} : stage.Drains endpoint →
      Advances stage text (.applying endpoint candidate)
  | drained {stage endpoint text} : stage.Drains endpoint →
      Advances stage text (.subscribing endpoint)
  | subscribed {endpoint text} : Advances (.subscribing endpoint) text (.offering endpoint)
  | answered {endpoint answer} : Advances (.offering endpoint) answer (.gathering endpoint answer)

/--
What a negotiation has exchanged since it had its mix. The endpoint and the port that its calls name are
those it has made.
-/
structure Built (n : Negotiation) (mix : SharedMix) (endpoint : Endpoint) (port : MixerPort)
    (applied : List Candidate) (stage : NegotiationStage) (build : List Exchange) : Prop where
  calls : Precedes n mix endpoint port applied stage (build.map call)
  succeeded : ∀ x ∈ build, x.succeeded
  endpoint : ∀ id ∈ Exchange.made .endpoint build, id = endpoint.id
  port : ∀ id ∈ Exchange.made .port build, id = port.id

/-- A beginning of the script, in which only the last call may have failed. -/
structure Builds (n : Negotiation) (mix : SharedMix) (endpoint : Endpoint) (port : MixerPort)
    (candidates : List Candidate) (build : List Exchange) : Prop where
  calls : build.map call <+: n.script mix endpoint port candidates
  succeeded : ∀ x ∈ build.dropLast, x.succeeded
  endpoint : ∀ id ∈ Exchange.made .endpoint build, id = endpoint.id
  port : ∀ id ∈ Exchange.made .port build, id = port.id

section Building
variable {n : Negotiation} {mix : SharedMix} {endpoint : Endpoint} {port : MixerPort}
  {applied : List Candidate} {stage : NegotiationStage} {build : List Exchange}
  {calls : List (EngineCall SessionId)} {call : EngineCall SessionId}

theorem call?_connecting (n : Negotiation) (endpoint : Endpoint) (port : MixerPort) :
    (NegotiationStage.connecting endpoint port).call? n = some (n.link endpoint port) := by
  unfold NegotiationStage.call? Negotiation.link
  cases n.role <;> rfl

theorem link_creates : (n.link endpoint port).creates? = none := by
  unfold Negotiation.link
  cases n.role <;> rfl

theorem made_singleton (kind : ObjectKind) (x : Exchange) :
    ∃ o, ∀ id ∈ Exchange.made kind [x], id = o := by
  cases h : x.made? kind with
  | none =>
    refine ⟨⟨""⟩, fun id hid => ?_⟩
    rw [Exchange.made, List.filterMap_cons_none h] at hid
    cases hid
  | some o =>
    refine ⟨o, fun id hid => ?_⟩
    rw [Exchange.made, List.filterMap_cons_some h] at hid
    exact List.mem_singleton.mp hid

theorem built_nil (n : Negotiation) (mix : SharedMix) (endpoint : Endpoint) (port : MixerPort) :
    Built n mix endpoint port [] (.creatingEndpoint mix) [] where
  calls := .creatingEndpoint
  succeeded _ h := by cases h
  endpoint _ h := by cases h
  port _ h := by cases h

theorem builds_nil (n : Negotiation) (mix : SharedMix) (endpoint : Endpoint) (port : MixerPort) :
    Builds n mix endpoint port [] [] where
  calls := List.nil_prefix
  succeeded _ h := by cases h
  endpoint _ h := by cases h
  port _ h := by cases h

theorem Precedes.call? (h : Precedes n mix endpoint port applied stage calls) :
    ∃ call, stage.isLive ∧ stage.seeksMix = false ∧ stage.call? n = some call := by
  cases h with
  | connecting => exact ⟨_, rfl, rfl, call?_connecting n endpoint port⟩
  | _ => exact ⟨_, rfl, rfl, rfl⟩

/-- The calls before a stage and the call of the stage begin the script. -/
theorem Precedes.script_prefix (h : Precedes n mix endpoint port applied stage calls)
    (hcall : stage.call? n = some call) :
    ∃ candidates, calls ++ [call] <+: n.script mix endpoint port candidates := by
  unfold Negotiation.script
  cases h with
  | creatingEndpoint | creatingPort =>
    obtain rfl := Option.some.inj hcall
    exact ⟨[], by simp [Negotiation.opening]⟩
  | connecting =>
    obtain rfl := Option.some.inj ((call?_connecting n endpoint port).symm.trans hcall)
    exact ⟨[], by simp [Negotiation.opening]⟩
  | applying candidate =>
    obtain rfl := Option.some.inj hcall
    exact ⟨applied ++ [candidate], by simp⟩
  | subscribing | offering | gathering =>
    obtain rfl := Option.some.inj hcall
    exact ⟨applied, by simp⟩

theorem Precedes.script_eq {e : Endpoint} {answer : String}
    (h : Precedes n mix endpoint port applied (.gathering e answer) calls) :
    calls ++ [.gather e] = n.script mix endpoint port applied := by
  cases h
  simp [Negotiation.script]

theorem Precedes.advance {stage' : NegotiationStage} {text : String}
    (h : Precedes n mix endpoint port applied stage calls) (hcall : stage.call? n = some call)
    (hadvances : Advances stage text stage')
    (hendpoint : call.creates? = some .endpoint → ObjectId.mk text = endpoint.id)
    (hport : call.creates? = some .port → ObjectId.mk text = port.id) :
    ∃ applied', Precedes n mix endpoint port applied' stage' (calls ++ [call]) := by
  cases h with
  | creatingEndpoint =>
    obtain rfl := Option.some.inj hcall
    cases hadvances with
    | endpointMade =>
      rw [hendpoint rfl]
      exact ⟨applied, .creatingPort⟩
    | applies hdrains | drained hdrains => cases hdrains
  | creatingPort =>
    obtain rfl := Option.some.inj hcall
    cases hadvances with
    | portMade =>
      rw [hport rfl]
      exact ⟨applied, .connecting⟩
    | applies hdrains | drained hdrains => cases hdrains
  | connecting =>
    obtain rfl := Option.some.inj ((call?_connecting n endpoint port).symm.trans hcall)
    -- From here on the calls of the script are the opening and what was applied, which is nothing yet.
    cases hadvances with
    | applies hdrains =>
      cases hdrains
      exact ⟨[], .applying _⟩
    | drained hdrains =>
      cases hdrains
      exact ⟨[], .subscribing⟩
  | applying candidate =>
    obtain rfl := Option.some.inj hcall
    have hmore : n.opening mix endpoint port ++ applied.map (.addCandidate endpoint) ++
        [.addCandidate endpoint candidate] =
        n.opening mix endpoint port ++ (applied ++ [candidate]).map (.addCandidate endpoint) := by
      simp
    rw [hmore]
    cases hadvances with
    | applies hdrains =>
      cases hdrains
      exact ⟨_, .applying _⟩
    | drained hdrains =>
      cases hdrains
      exact ⟨_, .subscribing⟩
  | subscribing =>
    obtain rfl := Option.some.inj hcall
    cases hadvances with
    | subscribed => exact ⟨applied, .offering⟩
    | applies hdrains | drained hdrains => cases hdrains
  | offering =>
    obtain rfl := Option.some.inj hcall
    cases hadvances with
    | answered =>
      rw [List.append_assoc]
      exact ⟨applied, .gathering text⟩
    | applies hdrains | drained hdrains => cases hdrains
  | gathering =>
    cases hadvances with
    | applies hdrains | drained hdrains => cases hdrains

/--
When the call of a stage is answered, there are an endpoint and a port which all calls so far name and
which are all that was made: the answer may have brought one of them.
-/
theorem Built.answered (h : Built n mix endpoint port applied stage build)
    (hcall : stage.call? n = some call) (reply : Reply) :
    ∃ (endpoint' : Endpoint) (port' : MixerPort),
      Precedes n mix endpoint' port' applied stage (build.map Exchange.call) ∧
      (∀ id ∈ Exchange.made .endpoint (build ++ [⟨call, reply⟩]), id = endpoint'.id) ∧
      ∀ id ∈ Exchange.made .port (build ++ [⟨call, reply⟩]), id = port'.id := by
  obtain ⟨hcalls, _, hendpoint, hport⟩ := h
  have hadds : ∀ kind, call.creates? ≠ some kind →
      Exchange.made kind (build ++ [⟨call, reply⟩]) = Exchange.made kind build := by
    intro kind hne
    have hnone : Exchange.made kind [⟨call, reply⟩] = [] :=
      made_eq_nil fun x hx => by rwa [List.mem_singleton.mp hx]
    rw [made_append, hnone, List.append_nil]
  have hsame : call.creates? = none → ∃ (endpoint' : Endpoint) (port' : MixerPort),
      Precedes n mix endpoint' port' applied stage (build.map Exchange.call) ∧
      (∀ id ∈ Exchange.made .endpoint (build ++ [⟨call, reply⟩]), id = endpoint'.id) ∧
      ∀ id ∈ Exchange.made .port (build ++ [⟨call, reply⟩]), id = port'.id := by
    intro hnone
    refine ⟨endpoint, port, hcalls, ?_, ?_⟩
    · rwa [hadds _ (by rw [hnone]; exact nofun)]
    · rwa [hadds _ (by rw [hnone]; exact nofun)]
  cases stage with
  | creatingEndpoint m =>
    obtain rfl := Option.some.inj hcall
    obtain ⟨o, ho⟩ := made_singleton .endpoint ⟨.createEndpoint m.pipeline, reply⟩
    have hnil : build = [] := by
      cases build with
      | nil => rfl
      | cons => cases hcalls
    subst hnil
    cases hcalls
    exact ⟨⟨o⟩, port, .creatingEndpoint, ho, by rwa [hadds .port nofun]⟩
  | creatingPort m e =>
    obtain rfl := Option.some.inj hcall
    obtain ⟨o, ho⟩ := made_singleton .port ⟨.createPort m.mixer, reply⟩
    have hbare : Exchange.made .port build = [] := by
      refine made_eq_nil fun x hx => ?_
      have hm := List.mem_map_of_mem (f := Exchange.call) hx
      generalize build.map Exchange.call = calls at hcalls hm
      cases hcalls
      rw [List.mem_singleton.mp hm]
      exact nofun
    refine ⟨endpoint, ⟨o⟩, ?_, ?_, ?_⟩
    · generalize build.map Exchange.call = calls at hcalls
      cases hcalls
      exact .creatingPort
    · rwa [hadds .endpoint nofun]
    · rwa [made_append, hbare]
  | connecting e p =>
    obtain rfl := Option.some.inj ((call?_connecting n e p).symm.trans hcall)
    exact hsame link_creates
  | applying | subscribing | offering | gathering =>
    obtain rfl := Option.some.inj hcall
    exact hsame rfl
  | _ =>
    generalize build.map Exchange.call = calls at hcalls
    cases hcalls

theorem Built.cut (h : Built n mix endpoint port applied stage build)
    (hcall : stage.call? n = some call) (reply : Reply) :
    ∃ endpoint' port' candidates,
      Builds n mix endpoint' port' candidates (build ++ [⟨call, reply⟩]) := by
  obtain ⟨endpoint', port', hcalls, hendpoint, hport⟩ := h.answered hcall reply
  obtain ⟨candidates, hprefix⟩ := hcalls.script_prefix hcall
  refine ⟨endpoint', port', candidates, ?_, ?_, hendpoint, hport⟩
  · rwa [List.map_append]
  · rw [List.dropLast_concat]
    exact h.succeeded

theorem Built.succeeds (h : Built n mix endpoint port applied stage build) (text : String) :
    ∀ x ∈ build ++ [⟨call, .ok text⟩], x.succeeded := by
  intro x hx
  rcases List.mem_append.mp hx with hx | hx
  · exact h.succeeded x hx
  · rw [List.mem_singleton.mp hx]
    rfl

theorem Built.complete {e : Endpoint} {answer : String}
    (h : Built n mix endpoint port applied (.gathering e answer) build) (text : String) :
    ∃ endpoint' port',
      Builds n mix endpoint' port' applied (build ++ [Exchange.mk (.gather e) (.ok text)]) ∧
      (build ++ [Exchange.mk (.gather e) (.ok text)]).map Exchange.call =
        n.script mix endpoint' port' applied := by
  obtain ⟨endpoint', port', hcalls, hendpoint, hport⟩ := h.answered rfl (.ok text)
  have hall : (build ++ [Exchange.mk (.gather e) (.ok text)]).map Exchange.call =
      n.script mix endpoint' port' applied := by
    rw [List.map_append]
    exact hcalls.script_eq
  refine ⟨endpoint', port', ⟨hall ▸ List.prefix_refl _, ?_, hendpoint, hport⟩, hall⟩
  rw [List.dropLast_concat]
  exact h.succeeded

theorem Built.advance {stage' : NegotiationStage} {text : String}
    (h : Built n mix endpoint port applied stage build) (hcall : stage.call? n = some call)
    (hadvances : Advances stage text stage') :
    ∃ endpoint' port' applied',
      Built n mix endpoint' port' applied' stage' (build ++ [⟨call, .ok text⟩]) := by
  obtain ⟨endpoint', port', hcalls, hendpoint, hport⟩ := h.answered hcall (.ok text)
  have hmade : ∀ kind, call.creates? = some kind →
      ObjectId.mk text ∈ Exchange.made kind (build ++ [⟨call, .ok text⟩]) := by
    intro kind hcreates
    rw [made_append]
    exact List.mem_append_right _ (by simp [Exchange.made, made?, hcreates])
  obtain ⟨applied', hadvanced⟩ := hcalls.advance hcall hadvances
    (fun hcreates => hendpoint _ (hmade _ hcreates)) fun hcreates => hport _ (hmade _ hcreates)
  refine ⟨endpoint', port', applied', ?_, ?_, hendpoint, hport⟩
  · rwa [List.map_append]
  · exact h.succeeds text

end Building

end Broadcast

end Rostrum
