import Rostrum.Proofs.Broadcast.History
import Rostrum.Proofs.Broadcast.Release

/-!
# What a session has that takes part

A negotiation ends with its entry ready only after an endpoint and a mixer port were made for it and all
waiting candidates were applied. Neither is ever taken back from an entry, so a session that takes part
has both, and its candidates go straight to its endpoint.
-/

namespace Rostrum

namespace NegotiationStage

/-- Whether a port was made for a negotiation that has come to a stage. -/
def hasPort : NegotiationStage → Bool
  | .connecting _ _ => true
  | .applying _ _ => true
  | .subscribing _ => true
  | .offering _ => true
  | .gathering _ _ => true
  | _ => false

theorem isLive_of_hasPort {stage : NegotiationStage} (h : stage.hasPort) : stage.isLive := by
  cases stage <;> first | rfl | cases h

end NegotiationStage

namespace Broadcast

section Moves
variable {r : Registry} {before after : Option Task} {reply : Option Reply}
  {calls : List Registry.Call}

/-- A negotiation that has a port had one before, or the reply brings it. -/
theorem Move.port_origin (m : Move r before reply calls after) {n : Negotiation}
    {stage : NegotiationStage} (hafter : after = some (.negotiation n stage)) (hport : stage.hasPort) :
    (∃ stage', before = some (.negotiation n stage') ∧ stage'.hasPort) ∨
      ∃ id, (n.attempt, .port, id) ∈ madeForBy before reply := by
  have hlive := NegotiationStage.isLive_of_hasPort hport
  cases m with
  | refused | buffers | applies | completes => cases hafter
  | enters | waits | obtains | endpointMade =>
    cases hafter
    cases hport
  | disposes _ hd | givesUp _ _ hd =>
    rw [hd.not_live hafter] at hlive
    cases hlive
  | @portMade _ _ _ id =>
    cases hafter
    exact Or.inr ⟨⟨id⟩, List.mem_singleton_self _⟩
  | applying hdrains | drained hdrains =>
    cases hafter
    exact Or.inl ⟨_, rfl, by cases hdrains <;> rfl⟩
  | goesOn hdrained =>
    cases hafter
    exact Or.inl ⟨_, rfl, by cases hdrained <;> rfl⟩

end Moves

/-- What is known of the ports between two steps, and of the entries that are ready. -/
structure Equipped (b : Broadcast) : Prop where
  led : ∀ t n stage, b.tasks.get? t = some (.negotiation n stage) → stage.hasPort →
    ∃ id, (n.attempt, .port, id) ∈ madeFor b.log
  ready : ∀ e ∈ b.coordinator.registry.entries, e.phase = .ready →
    e.endpointReady ∧ ∃ id, (e.attempt, .port, id) ∈ madeFor b.log

theorem equipped_empty : Equipped {} where
  led _ _ _ h := by cases h
  ready e h := by cases Multiset.notMem_zero e h

theorem Equipped.step {x : Episode} (heq : x.before.Equipped) (h : x.before.Consistent)
    (hx : x.Occurs) : x.after.Equipped := by
  have ht := hx.taken h
  have hmore : madeFor x.before.log ⊆ madeFor x.after.log := madeFor_subset_take
  refine ⟨fun t n stage hleft hport => ?_, fun e he hready => ?_⟩
  · rw [x.get?_after] at hleft
    by_cases hne : x.task = t
    · rw [if_pos hne] at hleft
      rcases ht.follows.move.port_origin hleft hport with ⟨stage', hwas, hport'⟩ | ⟨id, hm⟩
      · obtain ⟨id, hm⟩ := heq.led x.task n stage' (ht.task.trans hwas) hport'
        exact ⟨id, hmore hm⟩
      · refine ⟨id, ?_⟩
        rw [Episode.after, madeFor_take]
        exact List.mem_append_right _ hm
    · rw [if_neg hne] at hleft
      obtain ⟨id, hm⟩ := heq.led t n stage hleft hport
      exact ⟨id, hmore hm⟩
  · obtain ⟨e₀, he₀, hev, hold | ⟨n, endpoint, answer, hwas, ha⟩⟩ :=
      h.ready_origin ht.task ht.follows he hready
    · obtain ⟨hstraight, id, hm⟩ := heq.ready e₀ he₀ hold
      exact ⟨hev.endpointReady hstraight, id, hmore (hev.attempt ▸ hm)⟩
    · -- the negotiation had drained the queue before, and its port was made
      obtain ⟨y, hy, _, _, hstraight⟩ := h.hasEntry_before ht.task n _ hwas rfl
      obtain rfl := h.wellFormed.eq_of_attempt? hy he₀ ha.symm
      obtain ⟨id, hm⟩ := heq.led x.task n _ (ht.task.trans hwas) rfl
      exact ⟨hev.endpointReady hstraight, id, hmore (hev.attempt ▸ ha ▸ hm)⟩

theorem equipped (actions : List Action) : (run {} actions).Equipped :=
  history_induction (P := fun _ b => b.Equipped) equipped_empty
    (fun _ _ heq h hx => heq.step h hx) actions

/-- A session that takes part has an endpoint, which takes candidates at once, and a port. -/
theorem ready_has_media (actions : List Action) {e : Entry}
    (he : e ∈ (run {} actions).coordinator.registry.entries) (hready : e.phase = .ready) :
    e.endpointReady ∧ e.endpoint.isSome ∧ e.port.isSome := by
  obtain ⟨hstraight, id, hm⟩ := (equipped actions).ready e he hready
  have hport := ((accounts actions).carried e he .port id rfl).mpr hm
  exact ⟨hstraight, (consistent actions).ready_endpoint e he hready, Option.isSome_of_eq_some hport⟩

end Broadcast

end Rostrum
