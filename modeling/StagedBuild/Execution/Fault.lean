import StagedBuild.Target
import StagedBuild.Text.Lines

/-!
# Faults

Why a step or a run stopped. A fault keeps its cause through all the contexts that are put around
it, so a cancellation is recognised however deep it lies.

## Main definitions

* `Fault`: a cause within contexts.
* `RunFailure`: why a run of several pipelines brought no artifacts.
-/

namespace StagedBuild

/-- What made a step stop. -/
inductive Cause where
  /-- Another target failed or the run was called off. -/
  | cancelled
  | message (text : String)
deriving DecidableEq, Repr

def Cause.text : Cause → String
  | cancelled => "cancelled"
  | message text => text

/-- A cause, and the contexts in which it was met. -/
structure Fault where
  /-- The contexts, outermost first. -/
  contexts : List String := []
  cause : Cause
deriving DecidableEq, Repr

namespace Fault

/-- The fault of a step that stopped because it was told to. -/
def cancelled : Fault := { cause := .cancelled }

def ofMessage (text : String) : Fault := { cause := .message text }

/-- The fault as met within one more context. -/
def within (context : String) (fault : Fault) : Fault :=
  { fault with contexts := context :: fault.contexts }

def isCancelled (fault : Fault) : Bool :=
  fault.cause == .cancelled

/-- The outermost message. -/
def outermost (fault : Fault) : String :=
  fault.contexts.headD fault.cause.text

/-- All messages, outermost first. -/
def chain (fault : Fault) : String :=
  Text.joinWith ": " (fault.contexts ++ [fault.cause.text])

end Fault

/-- Why a run brought no artifacts, or not all of them to their place. -/
inductive RunFailure where
  /-- A target failed by itself. -/
  | target (target : Target) (fault : Fault)
  /-- Targets were cancelled and none failed by itself. -/
  | cancelled
  /-- An artifact was not accepted. -/
  | emission (fault : Fault)
deriving DecidableEq, Repr

def RunFailure.message : RunFailure → String
  | .target failed fault => "target " ++ failed.name ++ " failed: " ++ fault.chain
  | .cancelled => "build cancelled"
  | .emission fault => "emit artifacts: " ++ fault.chain

end StagedBuild
