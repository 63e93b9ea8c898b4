import Rostrum.Engine.Call

/-!
# The shared mix

One pipeline and one mixer serve all sessions. They are made for the first presenter, under a lock, so
that presenters who come meanwhile wait for the same mix instead of making their own; the lock is
handed on in the order of arrival. Viewers look only at the mix that is published and never wait.

`MixRequest` and `MixWithdrawal` say how far a task has come that wants the mix, or wants it gone.
Between two calls to the engine each of them takes one step, which nothing interrupts.
-/

namespace Rostrum

structure TaskId where
  number : Nat
deriving DecidableEq, Repr, Inhabited

/-- The pipeline and the mixer that all sessions share. -/
structure SharedMix where
  pipeline : Pipeline
  mixer : Mixer
deriving DecidableEq, Repr

/-- The place of the shared mix, and the lock on it. -/
structure MixCell where
  /-- What the holder of the lock sees. -/
  made : Option SharedMix := none
  /-- What everybody sees. -/
  published : Option SharedMix := none
  holder : Option TaskId := none
  /-- Who waits for the lock, first come first. -/
  waiting : List TaskId := []
deriving Repr, Inhabited

/-- What a task does next: it goes on in a new state, or it is done. -/
inductive Progress (σ α : Type) where
  | ongoing (state : σ)
  | done (result : α)
deriving Repr

inductive MixRequest where
  | waiting
  | creatingPipeline
  | creatingMixer (pipeline : Pipeline)
  /-- The mixer could not be made, and the pipeline is released again. -/
  | undoing (pipeline : Pipeline) (fault : EngineFault)
deriving Repr

inductive MixWithdrawal where
  | waiting
  | releasingMixer (mix : SharedMix)
  | releasingPipeline (mix : SharedMix)
deriving Repr

def MixRequest.call? {L : Type} : MixRequest → Option (EngineCall L)
  | .waiting => none
  | .creatingPipeline => some .createPipeline
  | .creatingMixer pipeline => some (.createMixer pipeline)
  | .undoing pipeline _ => some (.release pipeline.id)

def MixWithdrawal.call? {L : Type} : MixWithdrawal → Option (EngineCall L)
  | .waiting => none
  | .releasingMixer mix => some (.release mix.mixer.id)
  | .releasingPipeline mix => some (.release mix.pipeline.id)

namespace MixCell

/-- Takes the lock if it is free, and queues up otherwise. -/
def lock (m : MixCell) (t : TaskId) : Bool × MixCell :=
  match m.holder with
  | none => (true, { m with holder := some t })
  | some _ => (false, { m with waiting := m.waiting ++ [t] })

/-- Hands the lock to the first who waits. -/
def unlock (m : MixCell) : MixCell :=
  match m.waiting with
  | [] => { m with holder := none }
  | t :: rest => { m with holder := some t, waiting := rest }

/-- Whether a mix is the one that is published. -/
def isCurrent (m : MixCell) (mix : SharedMix) : Bool := m.published = some mix

/-- The outcome of a step of a request. -/
abbrev RequestStep := Progress MixRequest (Except EngineFault SharedMix) × MixCell

/-- The outcome of a step of a withdrawal: at the end, whether there was a mix. -/
abbrev WithdrawalStep := Progress MixWithdrawal Bool × MixCell

/-- The first step of a request once it has the lock: a mix that is there is taken as it is. -/
def enterRequest (m : MixCell) : RequestStep :=
  match m.made with
  | some mix => (.done (.ok mix), m.unlock)
  | none => (.ongoing .creatingPipeline, m)

def request (m : MixCell) (t : TaskId) : RequestStep :=
  match m.lock t with
  | (true, m) => m.enterRequest
  | (false, m) => (.ongoing .waiting, m)

/-- Goes on with a request after a reply of the engine. -/
def resumeRequest (m : MixCell) : MixRequest → Reply → RequestStep
  | .waiting, _ => (.ongoing .waiting, m)
  | .creatingPipeline, .ok id => (.ongoing (.creatingMixer ⟨⟨id⟩⟩), m)
  | .creatingPipeline, .error fault => (.done (.error fault), m.unlock)
  | .creatingMixer pipeline, .ok id =>
    let mix : SharedMix := ⟨pipeline, ⟨⟨id⟩⟩⟩
    (.done (.ok mix), { m with made := some mix, published := some mix }.unlock)
  | .creatingMixer pipeline, .error fault => (.ongoing (.undoing pipeline fault), m)
  | .undoing _ fault, _ => (.done (.error fault), m.unlock)

/-- The first step of a withdrawal once it has the lock. -/
def enterWithdrawal (m : MixCell) : WithdrawalStep :=
  match m.made with
  | some mix => (.ongoing (.releasingMixer mix), { m with made := none, published := none })
  | none => (.done false, { m with published := none }.unlock)

def withdraw (m : MixCell) (t : TaskId) : WithdrawalStep :=
  match m.lock t with
  | (true, m) => m.enterWithdrawal
  | (false, m) => (.ongoing .waiting, m)

/-- Goes on with a withdrawal after a reply of the engine, whatever it is. -/
def resumeWithdrawal (m : MixCell) : MixWithdrawal → WithdrawalStep
  | .waiting => (.ongoing .waiting, m)
  | .releasingMixer mix => (.ongoing (.releasingPipeline mix), m)
  | .releasingPipeline _ => (.done true, m.unlock)

end MixCell

end Rostrum
