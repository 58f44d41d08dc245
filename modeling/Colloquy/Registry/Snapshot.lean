import Colloquy.Registry.Stats

/-!
# Snapshots

The statistics of a registry at one moment, with end states by name.
-/

namespace Colloquy

structure Snapshot where
  selfInitiated : OrderedMap String UInt64
  otherInitiated : OrderedMap String UInt64
  opened : UInt64
  accepted : UInt64
  rejected : UInt64
  decodeFailures : UInt64
  deriving DecidableEq, Repr, Inhabited

def Stats.snapshot (stats : Stats) : Snapshot where
  selfInitiated := stats.selfInitiated.counts
  otherInitiated := stats.otherInitiated.counts
  opened := stats.opened
  accepted := stats.accepted
  rejected := stats.rejected
  decodeFailures := stats.decodeFailures

end Colloquy
