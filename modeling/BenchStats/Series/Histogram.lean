import BenchStats.Binary64.Arithmetic

/-!
# Histograms

Equal-width bins over the range of a series. Only finite values are counted. A bin starts at its
lower edge and ends before its upper edge, but the last one includes the greatest value.
-/

namespace BenchStats.Series

structure Bin where
  lower : Binary64
  upper : Binary64
  count : Nat
  deriving DecidableEq

/-- The least and the greatest value of a series. -/
def range? : List Binary64 → Option (Binary64 × Binary64)
  | [] => none
  | first :: rest =>
    some ((first :: rest).foldl (fun (lo, hi) value => (lo.min value, hi.max value)) (first, first))

/-- A range that is not a single value: half a unit is added on both sides of one. -/
def widened (lo hi : Binary64) : Binary64 × Binary64 :=
  if lo.numericEq hi then (lo.sub (.ofRat false (1 / 2)), hi.add (.ofRat false (1 / 2)))
  else (lo, hi)

def edge (lo width : Binary64) (index : Nat) : Binary64 := (Binary64.ofNat index).fma width lo

/-- The bin that a value falls into; values beyond the last one fall into it. -/
def binIndex (lo width : Binary64) (bins : Nat) (value : Binary64) : Nat :=
  ((value.sub lo).div width).floor.clampToNat (bins - 1)

def binCounts (lo width : Binary64) (bins : Nat) (values : List Binary64) : Array Nat :=
  values.foldl (fun counts value => counts.modify (binIndex lo width bins value) (· + 1))
    (Array.replicate bins 0)

/-- The bins of a series over its own range; none if it has no finite value. -/
def histogram (values : List Binary64) (bins : Nat) : List Bin :=
  let finite := values.filter Binary64.isFinite
  match range? finite with
  | none => []
  | some (least, greatest) =>
    let (lo, hi) := widened least greatest
    let width := (hi.sub lo).div (.ofNat bins)
    (binCounts lo width bins finite).toList.mapIdx fun i count =>
      { lower := edge lo width i
        upper := if i + 1 = bins then hi else edge lo width (i + 1)
        count }

end BenchStats.Series
