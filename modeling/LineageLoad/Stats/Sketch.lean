import LineageLoad.Double

/-!
A sketch of many durations from which quantiles are read within one per cent: counts in bins whose
bounds grow geometrically. The bins form one window of limited width; a wider range of bins is
collapsed into the lowest one.
-/

namespace LineageLoad

/-- A window of bins: the bin of a key stands at the position (key - offset). -/
structure BinWindow where
  bins : Array Nat := #[]
  count : Nat := 0
  /-- The least and the greatest key, above and below all others as long as there is none. -/
  minKey : Int := 2147483647
  maxKey : Int := -2147483648
  offset : Int := 0
  isCollapsed : Bool := false
  deriving DecidableEq, Repr, Inhabited

namespace BinWindow

/-- Windows grow by this number of bins. -/
def chunk : Nat := 128

/-- The greatest number of bins. -/
def limit : Nat := 2048

/-- The number of bins for a range of keys. -/
def lengthFor (low high : Int) : Nat :=
  let wanted := (high - low + 1).toNat
  min ((wanted + chunk - 1) / chunk * chunk) limit

def length (window : BinWindow) : Int := window.bins.size

def grow (window : BinWindow) (length : Nat) : BinWindow :=
  { window with bins := window.bins ++ Array.replicate (length - window.bins.size) 0 }

/-- Moves all counts up by a number of positions, or down; those that leave the window are lost. -/
def shift (window : BinWindow) (distance : Int) : BinWindow :=
  let bins := window.bins
  let k := distance.natAbs
  let moved := if 0 ≤ distance
    then Array.replicate (min k bins.size) 0 ++ bins.extract 0 (bins.size - k)
    else bins.extract k bins.size ++ Array.replicate (min k bins.size) 0
  { window with bins := moved, offset := window.offset - distance }

/-- The sum of the bins between two positions. -/
def sumBetween (bins : Array Nat) (start stop : Int) : Nat :=
  (bins.extract start.toNat stop.toNat).foldl (· + ·) 0

/-- Adds to a bin. -/
def addAt (bins : Array Nat) (position : Int) (count : Nat) : Array Nat :=
  bins.modify position.toNat (· + count)

/-- Makes the keys from (low) to (high) fit the bins: the window is centred on them, or its lowest
keys collapse into the lowest bin that can be kept.
-/
def fit (window : BinWindow) (low high : Int) : BinWindow :=
  if high - low + 1 ≤ window.length then
    let middle := low + (high - low + 1) / 2
    { window.shift (window.offset + window.length / 2 - middle) with minKey := low, maxKey := high }
  else
    let low := high - window.length + 1
    if window.maxKey ≤ low then
      let empty := Array.replicate window.bins.size 0
      { window with
        bins := addAt empty 0 window.count
        offset := low, minKey := low, maxKey := high, isCollapsed := true }
    else
      let start := window.minKey - window.offset
      let stop := low - window.offset
      let bins := if low ≤ window.offset then window.bins else
        let kept := window.bins.mapIdx fun position bin =>
          if start ≤ position ∧ position < stop then 0 else bin
        addAt kept stop (sumBetween window.bins start stop)
      { ({ window with bins }).shift (window.offset - low) with
        minKey := low, maxKey := high, isCollapsed := true }

def extendTo (window : BinWindow) (low high : Int) : BinWindow :=
  let low := min low window.minKey
  let high := max high window.maxKey
  if window.bins.isEmpty then { window.grow (lengthFor low high) with offset := low }.fit low high
  else if window.minKey ≤ low ∧ high < window.offset + window.length then
    { window with minKey := low, maxKey := high }
  else (window.grow (lengthFor low high)).fit low high

/-- Counts a key. Keys below a collapsed window count in its lowest bin. -/
def add (window : BinWindow) (key : Int) : BinWindow :=
  let extended :=
    if key < window.minKey then if window.isCollapsed then window else window.extendTo key key
    else if window.maxKey < key then window.extendTo key key
    else window
  let position := if key < window.minKey ∧ extended.isCollapsed then 0 else key - extended.offset
  { extended with bins := addAt extended.bins position 1, count := extended.count + 1 }

/-- The key of the bin that holds the value with a rank. -/
def keyAtRank (window : BinWindow) (rank : Nat) : Int :=
  let rec search (position before : Nat) : List Nat → Int
    | [] => window.maxKey
    | bin :: rest =>
      if rank < before + bin then window.offset + position
      else search (position + 1) (before + bin) rest
  search 0 0 window.bins.toList

/-- Adds the counts of another window. Keys of the other one below the least key of this one all
count in its lowest bin.
-/
def merge (window other : BinWindow) : BinWindow :=
  if other.count = 0 then window
  else if window.count = 0 then other
  else
    let extended :=
      if other.minKey < window.minKey ∨ window.maxKey < other.maxKey
      then window.extendTo other.minKey other.maxKey else window
    let start := other.minKey - other.offset
    let stop := min extended.minKey (other.maxKey + 1) - other.offset
    let bins := if start < stop then addAt extended.bins 0 (sumBetween other.bins start stop)
      else extended.bins
    let first := max start stop
    let count := (other.maxKey + 1 - other.offset - first).toNat
    let bins := (List.range count).foldl (fun bins (k : Nat) =>
      let position := first + (k : Int)
      addAt bins (position + other.offset - extended.offset)
        (other.bins.getD position.toNat 0)) bins
    { extended with bins, count := extended.count + other.count }

end BinWindow

/-- A sketch: the bins of the values above the least one that is told apart from zero, and the
number of the others.
-/
structure Sketch where
  window : BinWindow := {}
  zeros : Nat := 0
  deriving DecidableEq, Repr, Inhabited

namespace Sketch

/-- The logarithm of the ratio of neighbouring bounds, which is 1 + 0.02 / 0.99. -/
def logRatio : Float := Float.ofBits 0x3f947b0e059d0597

/-- The ratio of neighbouring bounds. -/
def ratio : Float := Float.ofBits 0x3ff052bf5a814afd

/-- Values up to this one, a billionth, count as zero. -/
def least : Double := Double.ofRatio 1 1000000000

/-- The key of the bin of a value. -/
def key (value : Double) : Int :=
  ((Float.ofBits value.bits).log / logRatio).ceil.toInt64.toInt

def valueOf (key : Int) : Double :=
  ⟨((Float.ofInt key * logRatio).exp * (2.0 / (1.0 + ratio))).toBits⟩

def count (sketch : Sketch) : Nat := sketch.window.count + sketch.zeros

/-- Counts a value, which is not negative. -/
def add (sketch : Sketch) (value : Double) : Sketch :=
  if least.bits < value.bits then { sketch with window := sketch.window.add (key value) }
  else { sketch with zeros := sketch.zeros + 1 }

/-- Adds the counts of another sketch. -/
def merge (sketch other : Sketch) : Sketch :=
  ⟨sketch.window.merge other.window, sketch.zeros + other.zeros⟩

/-- The value at a quantile, if there is any value. -/
def quantile? (sketch : Sketch) (q : Double) : Option Double :=
  if sketch.count = 0 then none
  else
    let rank := (q.mul (.ofNat (sketch.count - 1))).truncate (UInt64.size - 1)
    if rank < sketch.zeros then some ⟨0⟩
    else some (valueOf (sketch.window.keyAtRank (rank - sketch.zeros)))

end Sketch
end LineageLoad
