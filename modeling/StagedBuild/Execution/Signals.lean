/-!
# Stop signals

A signal is raised once and stays raised. Copies of a signal are one family and are raised together.

## Main definitions

* `Signals`: the signals that have been made, by number.
* `SignalStep`: making, copying and raising a signal.
* `Signals.isRaised`: the state of one signal.
-/

namespace StagedBuild

structure Signals where
  /-- The family of each signal: the number of the signal that it was first copied from. -/
  families : List Nat
  raised : List Nat
deriving DecidableEq, Repr

/-- What can be done with signals. A signal that has not been made yet is neither copied nor
raised. -/
inductive SignalStep where
  | fresh
  | clone (of : Nat)
  | raise (of : Nat)
deriving DecidableEq, Repr

namespace Signals

/-- A first signal that is not raised. -/
def start : Signals := ⟨[0], []⟩

def count (signals : Signals) : Nat := signals.families.length

def step (signals : Signals) : SignalStep → Signals
  | .fresh => { signals with families := signals.families ++ [signals.families.length] }
  | .clone of =>
    match signals.families[of]? with
    | none => signals
    | some family => { signals with families := signals.families ++ [family] }
  | .raise of =>
    match signals.families[of]? with
    | none => signals
    | some family => { signals with raised := family :: signals.raised }

/-- A signal is raised when its family is. -/
def isRaised (signals : Signals) (number : Nat) : Bool :=
  match signals.families[number]? with
  | none => false
  | some family => signals.raised.contains family

def states (signals : Signals) : List Bool :=
  (List.range signals.count).map signals.isRaised

def run (signals : Signals) (steps : List SignalStep) : Signals :=
  steps.foldl step signals

end Signals
end StagedBuild
