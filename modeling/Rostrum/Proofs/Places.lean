import Mathlib
import Rostrum.Broadcast.Places

/-!
# Places under concurrent requests

A request for a place takes its steps one by one, and any number of other requests take theirs in
between: `Crowd.after` runs the steps in an arbitrary order. A place is held from the step that finds
room for it until it begins to be given back. Main statement: no more places are held than there are,
and the counter is the number of places held and of those that are still to be taken off it again.
-/

namespace Rostrum.Places

/-- How far a request for a place has come. -/
inductive Visit where
  /-- It is counted and found room, and the gauge does not show it yet. -/
  | admitted
  | holding
  /-- It gives its place back, and is still counted. -/
  | leaving
  /-- It is counted no longer, and the gauge still shows it. -/
  | uncounted
  | left
  /-- It is counted although there was no room. -/
  | refused
  | turnedAway
deriving DecidableEq, Repr

namespace Visit

/-- The next step of a request; at its end nothing follows. -/
def goOn (p : Places) : Visit → Visit × Places
  | .admitted => (.holding, p.confirm)
  | .holding => (.leaving, p)
  | .leaving => (.uncounted, p.leave)
  | .uncounted => (.left, p.unconfirm)
  | .left => (.left, p)
  | .refused => (.turnedAway, p.takeBack)
  | .turnedAway => (.turnedAway, p)

/-- Whether the next step takes the request off the counter. -/
def isSubtracting : Visit → Bool
  | .leaving | .refused => true
  | _ => false

/-- Whether no step of a request is under way: it has its place or has come to its end. -/
def isAtRest : Visit → Bool
  | .holding | .left | .turnedAway => true
  | _ => false

def isOver : Visit → Bool
  | .left | .turnedAway => true
  | _ => false

end Visit

/-- The places and those who asked for one, in the order in which they asked. -/
structure Crowd where
  places : Places
  visits : List Visit := []

inductive Move where
  /-- A new request counts itself and looks at the limit. -/
  | ask
  /-- A request takes its next step. -/
  | goOn (n : Nat)
deriving DecidableEq, Repr

namespace Crowd

def perform (c : Crowd) : Move → Crowd
  | .ask =>
    { places := c.places.take.2
      visits := c.visits ++ [if c.places.take.1 then .admitted else .refused] }
  | .goOn n =>
    match c.visits[n]? with
    | none => c
    | some v => { places := (v.goOn c.places).2, visits := c.visits.set n (v.goOn c.places).1 }

/-- The crowd after some moves, starting with nobody. -/
def after (limit : Nat) (moves : List Move) : Crowd :=
  moves.foldl perform { places := { limit := limit } }

/-- How many requests have come exactly so far. -/
def count (c : Crowd) (v : Visit) : Nat := c.visits.count v

/-- How many places are held. -/
def held (c : Crowd) : Nat := c.count .admitted + c.count .holding

/-- How many requests have not come to their end. -/
def present (c : Crowd) : Nat := c.visits.countP fun v => !v.isOver

theorem after_concat (limit : Nat) (moves : List Move) (m : Move) :
    after limit (moves ++ [m]) = (after limit moves).perform m := by
  simp [after]

variable (c : Crowd)

theorem perform_goOn {n : Nat} {v : Visit} (h : c.visits[n]? = some v) :
    c.perform (.goOn n) =
      { places := (v.goOn c.places).2, visits := c.visits.set n (v.goOn c.places).1 } := by
  simp [perform, h]

theorem perform_absent {n : Nat} (h : c.visits[n]? = none) : c.perform (.goOn n) = c := by
  simp [perform, h]

/-- Alone, a request that asks and goes on does what a whole reservation does. -/
theorem perform_ask_goOn : (c.perform .ask).perform (.goOn c.visits.length) =
    { places := c.places.reserve.2
      visits := c.visits ++ [if c.places.reserve.1 then .holding else .turnedAway] } := by
  have hlast : (c.perform .ask).visits[c.visits.length]? =
      some (if c.places.take.1 then .admitted else .refused) := by simp [perform]
  rw [perform_goOn _ hlast]
  by_cases hroom : c.places.used < c.places.limit
  · simp [perform, reserve, take, hroom, Visit.goOn]
  · simp [perform, reserve, take, hroom, Visit.goOn]

/-- Alone, a request that goes on until it has left does what a whole return does. -/
theorem perform_goOn_left {n : Nat} (h : c.visits[n]? = some .holding) :
    (((c.perform (.goOn n)).perform (.goOn n)).perform (.goOn n)) =
      { places := c.places.release, visits := c.visits.set n .left } := by
  have hn := (List.getElem?_eq_some_iff.mp h).1
  have hleaving : (c.perform (.goOn n)).visits[n]? = some .leaving := by
    simp [c.perform_goOn h, Visit.goOn, hn]
  have huncounted : ((c.perform (.goOn n)).perform (.goOn n)).visits[n]? = some .uncounted := by
    rw [perform_goOn _ hleaving]
    simp [c.perform_goOn h, Visit.goOn, hn]
  rw [perform_goOn _ huncounted, perform_goOn _ hleaving, c.perform_goOn h]
  simp [Visit.goOn, release]

/-! ## Counting the requests -/

theorem count_concat (v w : Visit) (p : Places) :
    count { places := p, visits := c.visits ++ [w] } v = c.count v + if w = v then 1 else 0 := by
  simp [count, List.count_singleton]

/-- A request that goes from one point to another is counted there and not here. -/
theorem count_set {n : Nat} {v : Visit} (h : c.visits[n]? = some v) (w x : Visit) (p : Places) :
    count { places := p, visits := c.visits.set n w } x + (if v = x then 1 else 0) =
      c.count x + if w = x then 1 else 0 := by
  obtain ⟨hn, hv⟩ := List.getElem?_eq_some_iff.mp h
  have hpos : v = x → 0 < c.visits.count x := by
    intro heq
    subst heq hv
    exact List.count_pos_iff.mpr (List.getElem_mem hn)
  simp only [count, List.count_set hn, hv, beq_iff_eq]
  split
  · have := hpos ‹_›
    omega
  · omega

theorem count_pos {n : Nat} {v : Visit} (h : c.visits[n]? = some v) : 0 < c.count v :=
  List.count_pos_iff.mpr (List.mem_of_getElem? h)

/-! ## What every step keeps -/

/-- The counter and the gauge agree with the requests. -/
structure Balanced (c : Crowd) : Prop where
  used : c.places.used = c.held + c.count .refused + c.count .leaving
  connected : c.places.connected = c.count .holding + c.count .leaving + c.count .uncounted
  within : c.held + c.count .leaving ≤ c.places.limit

theorem balanced_start (limit : Nat) : Balanced { places := { limit := limit } } where
  used := rfl
  connected := rfl
  within := Nat.zero_le limit

namespace Balanced
variable {c : Crowd} (b : c.Balanced)
include b

theorem ask : (c.perform .ask).Balanced := by
  have hcount := fun v => c.count_concat v (if c.places.take.1 then .admitted else .refused) c.places.take.2
  have hused := b.used
  have hconnected := b.connected
  have hwithin := b.within
  unfold held at hused hwithin
  by_cases hroom : c.places.used < c.places.limit
  · simp only [take, hroom, decide_true, if_true] at hcount
    constructor <;> simp [perform, held, take, hroom, hcount] <;> omega
  · simp only [take, hroom, decide_false, Bool.false_eq_true, if_false] at hcount
    constructor <;> simp [perform, held, take, hroom, hcount] <;> omega

theorem goOn (n : Nat) : (c.perform (.goOn n)).Balanced := by
  cases h : c.visits[n]? with
  | none => rwa [c.perform_absent h]
  | some v =>
    have hcount := fun x => c.count_set h (v.goOn c.places).1 x (v.goOn c.places).2
    have hpos := c.count_pos h
    have hused := b.used
    have hconnected := b.connected
    have hwithin := b.within
    unfold held at hused hwithin
    rw [c.perform_goOn h]
    have ha := hcount .admitted
    have hh := hcount .holding
    have hl := hcount .leaving
    have hu := hcount .uncounted
    have hr := hcount .refused
    cases v <;> simp [Visit.goOn, confirm, leave, unconfirm, takeBack] at ha hh hl hu hr ⊢ <;>
      constructor <;> simp only [held] <;> omega

theorem perform (m : Move) : (c.perform m).Balanced := by
  cases m with
  | ask => exact b.ask
  | goOn n => exact b.goOn n

/-- A request that is still to be taken off the counter is counted. -/
theorem used_pos {n : Nat} {v : Visit} (h : c.visits[n]? = some v) (hv : v.isSubtracting) :
    0 < c.places.used := by
  have hpos := c.count_pos h
  have hused := b.used
  cases v <;> cases hv <;> omega

/-- Taking a request off the counter takes one off: the counter is not at zero then. -/
theorem used_goOn {n : Nat} {v : Visit} (h : c.visits[n]? = some v) (hv : v.isSubtracting) :
    (c.perform (.goOn n)).places.used + 1 = c.places.used := by
  have hpos := b.used_pos h hv
  rw [c.perform_goOn h]
  cases v <;> cases hv <;> exact Nat.sub_add_cancel hpos

/-- Nobody is counted who is not there. -/
theorem used_le_present : c.places.used ≤ c.present := by
  have hsum : c.count .admitted + c.count .holding + c.count .refused + c.count .leaving ≤ c.present := by
    unfold count present
    induction c.visits with
    | nil => exact Nat.le_refl 0
    | cons v rest ih =>
      simp only [List.count_cons, List.countP_cons]
      cases v <;> simp +decide only [if_true, if_false] <;> omega
  have hused := b.used
  unfold held at hused
  omega

end Balanced

theorem after_balanced (limit : Nat) (moves : List Move) : (after limit moves).Balanced := by
  induction moves using List.reverseRecOn with
  | nil => exact balanced_start limit
  | append_singleton moves m ih => rw [after_concat]; exact ih.perform m

@[simp] theorem limit_perform (m : Move) : (c.perform m).places.limit = c.places.limit := by
  cases m with
  | ask => rfl
  | goOn n =>
    cases h : c.visits[n]? with
    | none => rw [c.perform_absent h]
    | some v => rw [c.perform_goOn h]; cases v <;> rfl

theorem limit_after (limit : Nat) (moves : List Move) : (after limit moves).places.limit = limit := by
  induction moves using List.reverseRecOn with
  | nil => rfl
  | append_singleton moves m ih => rw [after_concat, limit_perform, ih]

/-! ## Requests that are turned away -/

/-- The request found no room. -/
def Declined (n : Nat) : Prop := c.visits[n]? = some .refused ∨ c.visits[n]? = some .turnedAway

/-- A request is declined at the very step that counts it, for want of room. -/
theorem declined_perform {n : Nat} {m : Move} (h : (c.perform m).Declined n) :
    c.Declined n ∨ (m = .ask ∧ n = c.visits.length ∧ c.places.limit ≤ c.places.used) := by
  cases m with
  | ask =>
    by_cases hn : n < c.visits.length
    · exact .inl (by simpa [Declined, perform, List.getElem?_append_left hn] using h)
    · have heq : n = c.visits.length := by
        have hlen : n < (c.perform .ask).visits.length := by
          rcases h with h | h <;> exact (List.getElem?_eq_some_iff.mp h).1
        simp [perform] at hlen
        omega
      subst heq
      refine .inr ⟨rfl, rfl, Nat.le_of_not_lt fun hroom => ?_⟩
      simp [Declined, perform, take, hroom] at h
  | goOn k =>
    refine .inl ?_
    cases hk : c.visits[k]? with
    | none => rwa [c.perform_absent hk] at h
    | some v =>
      rw [c.perform_goOn hk] at h
      by_cases hkn : k = n
      · subst hkn
        have hlt := (List.getElem?_eq_some_iff.mp hk).1
        cases v with
        | refused => exact .inl hk
        | turnedAway => exact .inr hk
        | _ => simp [Declined, Visit.goOn, hlt] at h
      · simpa [Declined, List.getElem?_set_ne hkn] using h

theorem declined_after {limit n : Nat} {moves : List Move} (h : (after limit moves).Declined n) :
    ∃ before later, moves = before ++ .ask :: later ∧ n = (after limit before).visits.length ∧
      limit ≤ (after limit before).places.used := by
  induction moves using List.reverseRecOn with
  | nil => rcases h with h | h <;> cases h
  | append_singleton moves m ih =>
    rw [after_concat] at h
    rcases declined_perform _ h with hbefore | ⟨rfl, hn, hfull⟩
    · obtain ⟨before, later, rfl, hrest⟩ := ih hbefore
      exact ⟨before, later ++ [m], by simp, hrest⟩
    · rw [limit_after] at hfull
      exact ⟨moves, [], rfl, hn, hfull⟩

/-! ## The main statement -/

/-- No step of a request is under way. -/
def IsQuiet : Prop := ∀ v ∈ c.visits, v.isAtRest

theorem count_of_quiet {c : Crowd} (h : c.IsQuiet) {v : Visit} (hv : v.isAtRest = false) :
    c.count v = 0 :=
  List.count_eq_zero.mpr fun hmem => Bool.false_ne_true (hv.symm.trans (h v hmem))

theorem reserve_iff (p : Places) : p.reserve.1 = true ↔ p.used < p.limit := by
  by_cases h : p.used < p.limit <;> simp [reserve, take, h]

/--
However many requests take their steps in whatever order, no more places are held than there are. The
counter is a word of 64 bits in a machine; it does not overflow with fewer than 2 ^ 64 requests present.
-/
theorem held_within_limit (limit : Nat) (moves : List Move) :
    (after limit moves).held ≤ limit ∧
    (after limit moves).places.used =
      (after limit moves).held + (after limit moves).count .refused + (after limit moves).count .leaving ∧
    (∀ n v, (after limit moves).visits[n]? = some v → v.isSubtracting →
      (after limit (moves ++ [.goOn n])).places.used + 1 = (after limit moves).places.used) ∧
    ((after limit moves).present < 2 ^ 64 → (after limit moves).places.used < 2 ^ 64) ∧
    (∀ n, (after limit moves).Declined n → ∃ before later, moves = before ++ .ask :: later ∧
      n = (after limit before).visits.length ∧ limit ≤ (after limit before).places.used) ∧
    ((after limit moves).IsQuiet →
      (after limit moves).places.used = (after limit moves).held ∧
      (after limit moves).places.connected = (after limit moves).held ∧
      ((after limit moves).places.reserve.1 = true ↔ (after limit moves).held < limit)) := by
  have b := after_balanced limit moves
  have hlimit := limit_after limit moves
  refine ⟨?_, b.used, ?_, ?_, fun n hn => declined_after hn, ?_⟩
  · have hwithin := b.within
    omega
  · intro n v hn hv
    rw [after_concat]
    exact b.used_goOn hn hv
  · intro hpresent
    exact Nat.lt_of_le_of_lt b.used_le_present hpresent
  · intro hquiet
    have hadmitted := count_of_quiet hquiet (v := .admitted) rfl
    have hleaving := count_of_quiet hquiet (v := .leaving) rfl
    have huncounted := count_of_quiet hquiet (v := .uncounted) rfl
    have hrefused := count_of_quiet hquiet (v := .refused) rfl
    have hused : (after limit moves).places.used = (after limit moves).held := by
      have h := b.used
      omega
    refine ⟨hused, ?_, ?_⟩
    · have h := b.connected
      unfold held
      omega
    · rw [reserve_iff, hused, hlimit]

/-- A request may find no room although no place is held: another one is not off the counter yet. -/
example : (after 1 [.ask, .goOn 0, .ask, .goOn 0, .goOn 0, .ask]).held = 0 ∧
    (after 1 [.ask, .goOn 0, .ask, .goOn 0, .goOn 0, .ask]).visits = [.uncounted, .refused, .refused] := by
  decide

end Crowd

end Rostrum.Places
