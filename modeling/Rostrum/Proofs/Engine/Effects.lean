import Mathlib.Data.List.TakeWhile
import Rostrum.Engine.Simulated
import Rostrum.Proofs.Table

/-!
# What one call does to the books of the simulated engine

`Carries` lists all that carrying out a call can come to. Everything else about the simulated engine is
derived from it. The name of a new object tells its number, so no name is given twice.
-/

namespace Rostrum

/-- The kind of object that a call creates. -/
def EngineCall.makes? {L : Type} : EngineCall L → Option ObjectKind
  | .createPipeline => some .pipeline
  | .createMixer _ => some .mixer
  | .createEndpoint _ => some .endpoint
  | .createPort _ => some .port
  | _ => none

/-! ## Names of objects -/

namespace EngineStyle

theorem not_isDigit_slash : ('/' : Char).isDigit = false := rfl

/-- A numeral ends where the first slash follows. -/
theorem takeWhile_toDigits (n : Nat) (rest : List Char) :
    (Nat.toDigits 10 n ++ '/' :: rest).takeWhile Char.isDigit = Nat.toDigits 10 n := by
  have hdigits : ∀ c ∈ Nat.toDigits 10 n, c.isDigit = true := fun c hc =>
    Nat.isDigit_of_mem_toDigits (by decide) (by decide) hc
  rw [List.takeWhile_append_of_pos hdigits, List.takeWhile_cons_of_neg (by simp [not_isDigit_slash]),
    List.append_nil]

theorem toDigits_injective {n m : Nat} (h : Nat.toDigits 10 n = Nat.toDigits 10 m) : n = m :=
  calc
    n = Nat.ofDigitChars 10 (Nat.toDigits 10 n) 0 := Nat.ofDigitChars_ten_toDigits.symm
    _ = Nat.ofDigitChars 10 (Nat.toDigits 10 m) 0 := by rw [h]
    _ = m := Nat.ofDigitChars_ten_toDigits

/-- The name of an object tells its number. -/
theorem number_of_objectName {style : EngineStyle} {n m : Nat} {kind kind' : ObjectKind}
    (h : style.objectName n kind = style.objectName m kind') : n = m := by
  have hname := congrArg (fun id => id.name.toList) h
  apply toDigits_injective
  cases style with
  | telling =>
    simp only [objectName, String.toList_append, Nat.toString_eq_repr, Nat.toList_repr, List.append_assoc,
      List.append_cancel_left_eq] at hname
    have hdigits := congrArg (List.takeWhile Char.isDigit) hname
    rwa [String.toList_ofList, List.singleton_append, takeWhile_toDigits, List.singleton_append,
      takeWhile_toDigits] at hdigits
  | terse =>
    simpa only [objectName, String.toList_append, Nat.toString_eq_repr, Nat.toList_repr,
      List.append_cancel_left_eq] using hname

end EngineStyle

namespace SimulatedEngine

variable {L : Type}

/-- How many of the next calls of an operation will fail. -/
def outstanding (e : SimulatedEngine L) (o : Operation) : Nat := (e.failures.get? o).getD 0

/-- The books with one more call in the journal. -/
def noted (e : SimulatedEngine L) (call : EngineCall L) : SimulatedEngine L :=
  { e with journal := e.journal.push call }

/-- What carrying out a call comes to: the reply, and the books afterwards. -/
inductive Carries (e : SimulatedEngine L) (call : EngineCall L) : Reply → SimulatedEngine L → Prop where
  | failed {n : Nat} : e.outstanding call.operation = n + 1 →
      Carries e call (.error (injectedFault call.operation))
        { e.noted call with failures := e.failures.put call.operation n }
  | unknown {id : ObjectId} : e.outstanding call.operation = 0 → call.operation ≠ .release →
      id ∈ call.objects → e.isLive id = false →
      Carries e call (.error (.unknownObject id.name)) (e.noted call)
  | missed {id : ObjectId} : e.outstanding call.operation = 0 → call = .release id → e.isLive id = false →
      Carries e call (.error (.unknownObject id.name))
        { e.noted call with
          listeners := e.listeners.erase id
          doubleReleases := e.doubleReleases + 1 }
  | freed {id : ObjectId} : e.outstanding call.operation = 0 → call = .release id → e.isLive id = true →
      Carries e call (.ok "")
        { e.noted call with listeners := e.listeners.erase id, live := e.live.erase id }
  | made {kind : ObjectKind} : e.outstanding call.operation = 0 → call.makes? = some kind →
      (∀ id ∈ call.objects, e.isLive id = true) →
      Carries e call (.ok (e.style.objectName (e.created + 1) kind).name)
        { e.noted call with
          created := e.created + 1
          live := e.live.put (e.style.objectName (e.created + 1) kind) kind }
  | subscribed {endpoint : Endpoint} {listener : L} : e.outstanding call.operation = 0 →
      call = .subscribe endpoint listener → e.isLive endpoint.id = true →
      Carries e call (.ok "") { e.noted call with listeners := e.listeners.put endpoint.id listener }
  /-- The call has no effect on the books. -/
  | answered {answer : String} : e.outstanding call.operation = 0 → call.makes? = none →
      call.operation ≠ .release → call.operation ≠ .subscribe →
      (∀ id ∈ call.objects, e.isLive id = true) → Carries e call (.ok answer) (e.noted call)

theorem missing?_eq_none_iff {e : SimulatedEngine L} {ids : List ObjectId} :
    e.missing? ids = none ↔ ∀ id ∈ ids, e.isLive id = true := by
  simp [missing?]

theorem of_missing? {e : SimulatedEngine L} {ids : List ObjectId} {id : ObjectId}
    (h : e.missing? ids = some id) : id ∈ ids ∧ e.isLive id = false :=
  ⟨List.mem_of_find?_eq_some h, by simpa using List.find?_some h⟩

theorem run_eq (e : SimulatedEngine L) (call : EngineCall L) :
    e.run call = match e.outstanding call.operation with
      | n + 1 => (.error (injectedFault call.operation),
          { e.noted call with failures := e.failures.put call.operation n })
      | 0 => (e.noted call).perform call := by
  unfold run outstanding
  dsimp only
  cases e.failures.get? call.operation with
  | none => rfl
  | some n => cases n <;> rfl

theorem perform_of_missing {e : SimulatedEngine L} {call : EngineCall L} {id : ObjectId}
    (hcall : call.operation ≠ .release) (h : e.missing? call.objects = some id) :
    e.perform call = (.error (.unknownObject id.name), e) := by
  cases call with
  | release object => exact absurd rfl hcall
  | _ => simp only [perform, h]

/-- Carrying out a call that is not made to fail. -/
theorem perform_carries {e : SimulatedEngine L} {call : EngineCall L}
    (h : e.outstanding call.operation = 0) :
    e.Carries call ((e.noted call).perform call).1 ((e.noted call).perform call).2 := by
  by_cases hcall : call.operation = .release
  · cases call with
    | release id =>
      have hdrop : (e.noted (.release id)).perform (.release id) = (e.noted (.release id)).drop id := rfl
      rw [hdrop, drop]
      cases hlive : e.isLive id with
      | true => rw [if_pos (show (e.noted _).isLive id = true from hlive)]; exact .freed h rfl hlive
      | false =>
        rw [if_neg (show ¬(e.noted _).isLive id = true from Bool.eq_false_iff.mp hlive)]
        exact .missed h rfl hlive
    | _ => cases hcall
  · cases hmissing : (e.noted call).missing? call.objects with
    | some id =>
      rw [perform_of_missing hcall hmissing]
      exact .unknown h hcall (of_missing? hmissing).1 (of_missing? hmissing).2
    | none =>
      have hlive : ∀ id ∈ call.objects, e.isLive id = true := missing?_eq_none_iff.mp hmissing
      cases call with
      | release id => exact absurd rfl hcall
      | createPipeline | createMixer _ | createEndpoint _ | createPort _ =>
        simp only [perform, hmissing]
        exact .made h rfl hlive
      | subscribe endpoint listener =>
        simp only [perform, hmissing]
        exact .subscribed h rfl (hlive _ List.mem_cons_self)
      | connect _ _ | processOffer _ _ | gather _ | addCandidate _ _ =>
        simp only [perform, hmissing]
        exact .answered h rfl nofun nofun hlive

theorem run_carries (e : SimulatedEngine L) (call : EngineCall L) :
    e.Carries call (e.run call).1 (e.run call).2 := by
  rw [run_eq]
  cases h : e.outstanding call.operation with
  | zero => exact perform_carries h
  | succ n => exact .failed h

end SimulatedEngine

end Rostrum
