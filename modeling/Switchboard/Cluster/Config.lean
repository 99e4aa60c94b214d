import Switchboard.Settings

namespace Switchboard

structure ClusterConfig where
  partitionCount : Nat
  slice : String
  deriving DecidableEq, Repr

namespace ClusterConfig

def standard : ClusterConfig := ⟨271, "default"⟩

def ofSettings (scope : String) (s : Settings) : ClusterConfig where
  partitionCount := (s.numberAt? 32 (scope ++ "_PARTITION_COUNT")).getD standard.partitionCount
  slice := (s.text? (scope ++ "_SLICE_NAME")).getD standard.slice

inductive Invalid where
  | noPartitions
  | emptySlice
  deriving DecidableEq, Repr

def Invalid.message : Invalid → String
  | noPartitions => "partition count must be greater than zero"
  | emptySlice => "slice name must not be empty"

def invalid? (c : ClusterConfig) : Option Invalid :=
  if c.partitionCount = 0 then some .noPartitions
  else if c.slice.isEmpty then some .emptySlice
  else none

end ClusterConfig

end Switchboard
