import BucketCare.Random.Source

/-!
# A random source from a seed

The source that a seed names: the words of the ChaCha stream with twelve rounds, whose key is
spread out from the seed by a generator of its own.

## Main definitions

* `ChaCha.block` — the sixteen words of a key for one block number
* `ChaCha.keyOfSeed` — the key that a seed stands for
* `seeded` — the words of the blocks 0, 1, 2, ... one after the other
-/

namespace BucketCare

namespace ChaCha

/-- Rotate a word to the left. -/
def rotateLeft (x k : UInt32) : UInt32 := (x <<< k) ||| (x >>> (32 - k))

/-- The words of a block. -/
abbrev Words := Array UInt32

/-- The word at a place of a block. -/
def word (w : Words) (i : Nat) : UInt32 := (w[i]?).getD 0

/-- Add the word at `b` to the one at `a`, join the result to the one at `d`, and rotate that. -/
def mix (a b d : Nat) (k : UInt32) (w : Words) : Words :=
  let w := w.setIfInBounds a (word w a + word w b)
  w.setIfInBounds d (rotateLeft (word w d ^^^ word w a) k)

/-- A quarter round on four places. -/
def quarter (a b c d : Nat) (w : Words) : Words :=
  mix c d b 7 (mix a b d 8 (mix c d b 12 (mix a b d 16 w)))

/-- Two rounds: down the four columns, and down the four diagonals. -/
def doubleRound (w : Words) : Words :=
  let w := quarter 3 7 11 15 (quarter 2 6 10 14 (quarter 1 5 9 13 (quarter 0 4 8 12 w)))
  quarter 3 4 9 14 (quarter 2 7 8 13 (quarter 1 6 11 12 (quarter 0 5 10 15 w)))

/-- The words that every block begins with. -/
def constants : List UInt32 := [0x61707865, 0x3320646E, 0x79622D32, 0x6B206574]

/-- A block before its rounds: the constants, the key, the block number in two words, and two words
of zero. -/
def initial (key : List UInt32) (number : Nat) : Words :=
  (constants ++ key ++ [UInt32.ofNat number, UInt32.ofNat (number / Nat.pow 2 32), 0, 0]).toArray

/-- The number of double rounds. -/
def doubleRounds : Nat := 6

/-- The sixteen words of a key for one block number. -/
def block (key : List UInt32) (number : Nat) : List UInt32 :=
  let start := initial key number
  let mixed := (List.range doubleRounds).foldl (fun w _ => doubleRound w) start
  List.zipWith (· + ·) start.toList mixed.toList

/-- The next state of the generator that spreads a seed. -/
def spread (state : UInt64) : UInt64 := state * 6364136223846793005 + 11634580027462260723

/-- The word that a state of that generator gives. -/
def spreadWord (state : UInt64) : UInt32 :=
  let x := (((state >>> 18) ^^^ state) >>> 27).toUInt32
  let k := (state >>> 59).toUInt32
  rotateLeft x ((32 - k) % 32)

/-- The key words that follow from a state of that generator. -/
def keyWords : Nat → UInt64 → List UInt32
  | 0, _ => []
  | n + 1, state => spreadWord (spread state) :: keyWords n (spread state)

/-- The key that a seed stands for. -/
def keyOfSeed (seed : UInt64) : List UInt32 := keyWords 8 seed

/-- How far a stream has been read: the number of the next block, and the words left of the one
before it. -/
structure State where
  key : List UInt32
  nextBlock : Nat
  left : List UInt32
  deriving DecidableEq, Repr

/-- The start of the stream of a seed. -/
def ofSeed (seed : UInt64) : State := ⟨keyOfSeed seed, 0, []⟩

end ChaCha

/-- The words of the blocks of a key, one block after the other. -/
def seeded : RandomSource ChaCha.State where
  next state :=
    match state.left with
    | w :: left => (w, { state with left })
    | [] =>
      let words := ChaCha.block state.key state.nextBlock
      (words.headD 0, { state with nextBlock := state.nextBlock + 1, left := words.tail })

end BucketCare
