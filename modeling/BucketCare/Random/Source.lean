/-!
# Random draws

A source of random 32-bit words, numbers drawn below a bound, and lists shuffled with them. A word
is refused when it would favour some of the numbers, so a draw may need several words. A draw from a
source that never gives a good word does not end; it is the least fixed point of its equation, which
is `none` there.

## Main definitions

* `RandomSource` — a source of words with a state
* `RandomSource.below?` — a number below a bound
* `RandomSource.shuffle?` — a list in random order
* `linear` — the source that repeats one linear map
-/

namespace BucketCare

/-- A source of random words. -/
structure RandomSource (ρ : Type) where
  next : ρ → UInt32 × ρ

namespace RandomSource

variable {ρ α : Type}

/-- The largest remainder, modulo 2 ^ 32, that the product of a good word and a bound may have: one
less than the bound shifted up to 32 bits. -/
def zone (bound : Nat) : Nat := bound * Nat.pow 2 (31 - bound.log2) - 1

/-- The number that a word stands for in a draw below a bound, unless the word is refused. -/
def accept (bound : Nat) (word : UInt32) : Option Nat :=
  let product := word.toNat * bound
  if product % Nat.pow 2 32 ≤ zone bound then some (product / Nat.pow 2 32) else none

/-- A number below a bound: that of the first word that is not refused. -/
def below? (source : RandomSource ρ) (bound : Nat) (state : ρ) : Option (Nat × ρ) :=
  match accept bound (source.next state).1 with
  | some n => some (n, (source.next state).2)
  | none => source |>.below? bound (source.next state).2
partial_fixpoint

/-- Exchange each of the places `i, i - 1, ..., 1` of an array with a random place not above it. -/
def shuffleFrom? (source : RandomSource ρ) : Nat → Array α → ρ → Option (Array α × ρ)
  | 0, items, state => some (items, state)
  | i + 1, items, state => do
    let (j, state) ← source.below? (i + 2) state
    shuffleFrom? source i (items.swapIfInBounds (i + 1) j) state

/-- A list in random order. -/
def shuffle? (source : RandomSource ρ) (items : List α) (state : ρ) : Option (List α × ρ) :=
  (source.shuffleFrom? (items.length - 1) items.toArray state).map fun (items, state) =>
    (items.toList, state)

end RandomSource

/-- The source whose next word is `1664525 · x + 1013904223` for the word `x` before it. -/
def linear : RandomSource UInt32 where
  next x :=
    let x := x * 1664525 + 1013904223
    (x, x)

end BucketCare
