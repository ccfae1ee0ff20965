/-!
# Words drawn from a seed

An endless sequence of 32-bit words, given by a seed of 64 bits: the ChaCha stream of twelve rounds under a key
that is spread from the seed. Any word can be had by its index.
-/

namespace EntityForge.WordStream

/-! ## The key -/

/-- The next state of the generator that spreads a seed. -/
def nextState (state : UInt64) : UInt64 :=
  state * 6364136223846793005 + 11634580027462260723

/-- The lower half of a word. -/
def low32 (x : UInt64) : UInt32 :=
  x.toUInt32

/-- The word rotated to the left. -/
def rotateLeft (x : UInt32) (n : UInt32) : UInt32 :=
  (x <<< n) ||| (x >>> (32 - n))

/-- The word rotated to the right. -/
def rotateRight (x : UInt32) (n : UInt32) : UInt32 :=
  if n = 0 then x else (x >>> n) ||| (x <<< (32 - n))

/-- The word that a state gives: its upper bits, mixed and rotated by the topmost ones. -/
def stateWord (state : UInt64) : UInt32 :=
  rotateRight (low32 (((state >>> 18) ^^^ state) >>> 27)) (low32 (state >>> 59))

/-- The words of the states that follow a state. -/
def spread (state : UInt64) : Nat → List UInt32
  | 0 => []
  | n + 1 => stateWord (nextState state) :: spread (nextState state) n

/-- The eight words of the key. -/
def key (seed : UInt64) : List UInt32 :=
  spread seed 8

/-! ## The blocks -/

/-- The sixteen words of a block. -/
abbrev Block :=
  Vector UInt32 16

/-- Mixes four words of a block. -/
def quarterRound (v : Block) (a b c d : Fin 16) : Block :=
  let v := v.set a (v[a] + v[b])
  let v := v.set d (rotateLeft (v[d] ^^^ v[a]) 16)
  let v := v.set c (v[c] + v[d])
  let v := v.set b (rotateLeft (v[b] ^^^ v[c]) 12)
  let v := v.set a (v[a] + v[b])
  let v := v.set d (rotateLeft (v[d] ^^^ v[a]) 8)
  let v := v.set c (v[c] + v[d])
  v.set b (rotateLeft (v[b] ^^^ v[c]) 7)

/-- Two rounds: one over the columns and one over the diagonals. -/
def doubleRound (v : Block) : Block :=
  let v := quarterRound v 0 4 8 12
  let v := quarterRound v 1 5 9 13
  let v := quarterRound v 2 6 10 14
  let v := quarterRound v 3 7 11 15
  let v := quarterRound v 0 5 10 15
  let v := quarterRound v 1 6 11 12
  let v := quarterRound v 2 7 8 13
  quarterRound v 3 4 9 14

/-- A block before its rounds: constants, the key, the number of the block and zeros. -/
def initialBlock (key : List UInt32) (number : Nat) : Block :=
  -- The constants spell `expand 32-byte k`; the block number fills two words, its lower half first.
  Vector.ofFn fun i =>
    ([0x61707865, 0x3320646e, 0x79622d32, 0x6b206574] ++ key
      ++ [UInt32.ofNat number, UInt32.ofNat (number / UInt32.size), 0, 0]).getD i 0

/-- The rounds applied a number of times. -/
def rounds (v : Block) : Nat → Block
  | 0 => v
  | n + 1 => rounds (doubleRound v) n

/-- A block: twelve rounds, and the block before them added to it. -/
def block (key : List UInt32) (number : Nat) : Block :=
  let start := initialBlock key number
  let mixed := rounds start 6
  Vector.ofFn fun i => mixed[i] + start[i]

/-- The word of an index. -/
def word (seed : UInt64) (index : Nat) : UInt32 :=
  have : index % 16 < 16 := Nat.mod_lt _ (by decide)
  (block (key seed) (index / 16))[index % 16]

/-! ## Numbers of a range -/

/-- The greatest low half with which a word may be taken for a number below `range`: the range shifted up as far
as it goes, less one. -/
def acceptance (range : Nat) : Nat :=
  range <<< (31 - range.log2) - 1

/-- A number below `range` drawn from the words at `position` and on, and the position after it. A word times the
range has the number in its upper half; if its lower half is too great the next word is taken, at most `tries`
times. -/
def drawBelow (seed : UInt64) (range : Nat) : Nat → Nat → Nat × Nat
  | 0, position => ((word seed position).toNat * range / UInt32.size, position + 1)
  | tries + 1, position =>
    let product := (word seed position).toNat * range
    if product % UInt32.size ≤ acceptance range then (product / UInt32.size, position + 1)
    else drawBelow seed range tries (position + 1)

/-- How often a word may be refused. A word is refused in less than half of all cases. -/
def maxTries : Nat :=
  4096

/-- A number of `[low, high)` drawn from the words at `position` and on, and the position after it. -/
def draw (seed : UInt64) (low high position : Nat) : Nat × Nat :=
  let (n, position) := drawBelow seed (high - low) maxTries position
  (low + n, position)

/-- What is drawn below a positive number is below it. -/
theorem drawBelow_lt {seed : UInt64} {range : Nat} (h : 0 < range) (tries position : Nat) :
    (drawBelow seed range tries position).1 < range := by
  have hword : ∀ p, (word seed p).toNat * range / UInt32.size < range := by
    intro p
    rw [Nat.div_lt_iff_lt_mul (by decide), Nat.mul_comm range]
    exact Nat.mul_lt_mul_of_pos_right (UInt32.toNat_lt _) h
  induction tries generalizing position with
  | zero => exact hword position
  | succ tries ih =>
    simp only [drawBelow]
    split
    · exact hword position
    · exact ih (position + 1)

end EntityForge.WordStream
