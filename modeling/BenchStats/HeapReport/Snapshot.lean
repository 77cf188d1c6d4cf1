import BenchStats.Number

/-!
# Snapshots of the heap

A heap report lists snapshots, each with a running number, a time and four sizes in bytes.
-/

namespace BenchStats

structure Snapshot where
  index : Number
  time : Number
  totalBytes : Number
  usefulHeapBytes : Number
  extraHeapBytes : Number
  stackBytes : Number
  deriving DecidableEq

namespace Snapshot

def columns : List String :=
  ["n", "time(i)", "total(B)", "useful-heap(B)", "extra-heap(B)", "stacks(B)"]

/-- The values of a snapshot, in the order of the columns. -/
def values (s : Snapshot) : List Number :=
  [s.index, s.time, s.totalBytes, s.usefulHeapBytes, s.extraHeapBytes, s.stackBytes]

def ofValues? : List Number → Option Snapshot
  | [index, time, totalBytes, usefulHeapBytes, extraHeapBytes, stackBytes] =>
    some { index, time, totalBytes, usefulHeapBytes, extraHeapBytes, stackBytes }
  | _ => none

@[simp] theorem ofValues?_values (s : Snapshot) : ofValues? s.values = some s := rfl

@[simp] theorem length_values (s : Snapshot) : s.values.length = columns.length := rfl

end Snapshot

end BenchStats
