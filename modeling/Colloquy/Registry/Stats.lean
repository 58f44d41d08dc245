import Colloquy.Dialogue
import Colloquy.Tally

/-!
# Registry statistics

What a registry counts: dialogues opened, messages accepted and refused,
payloads that could not be read, and the end states that dialogues reached,
apart for those the local agent opened and those the opponent opened.
-/

namespace Colloquy

structure Stats where
  selfInitiated : Tally
  otherInitiated : Tally
  opened : UInt64
  accepted : UInt64
  rejected : UInt64
  decodeFailures : UInt64
  deriving DecidableEq, Repr, Inhabited

namespace Stats

/-- Nothing has been counted yet. -/
def ofEndStates (states : List EndState) : Stats where
  selfInitiated := .ofNames (states.map EndState.name)
  otherInitiated := .ofNames (states.map EndState.name)
  opened := 0
  accepted := 0
  rejected := 0
  decodeFailures := 0

def recordOpened (stats : Stats) : Stats :=
  { stats with opened := stats.opened + 1 }

def recordAccepted (stats : Stats) : Stats :=
  { stats with accepted := stats.accepted + 1 }

def recordRejected (stats : Stats) : Stats :=
  { stats with rejected := stats.rejected + 1 }

def recordDecodeFailure (stats : Stats) : Stats :=
  { stats with decodeFailures := stats.decodeFailures + 1 }

/-- Count the end state of a dialogue, if it has ended with one. -/
def recordOutcome (stats : Stats) (dialogue : Dialogue) : Stats :=
  match dialogue.outcome? with
  | none => stats
  | some state =>
    if dialogue.isSelfInitiated then
      { stats with selfInitiated := stats.selfInitiated.record state.name }
    else
      { stats with otherInitiated := stats.otherInitiated.record state.name }

/-- How many dialogues reached an end state: those opened here, and those opened
by the opponent. -/
def endStateCount (stats : Stats) (state : EndState) : UInt64 × UInt64 :=
  ((stats.selfInitiated.get? state.name).getD 0,
    (stats.otherInitiated.get? state.name).getD 0)

end Stats

end Colloquy
