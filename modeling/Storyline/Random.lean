import Storyline.Number.Binary64

/-! # Random source

An endless row of 64-bit words, read in order.
-/
namespace Storyline

structure RandomSource where
  word : Nat → UInt64
  taken : Nat

namespace RandomSource

/-- The fraction of 1 that the upper 53 bits of a word give, in steps of 2⁻⁵³. -/
def fraction (word : UInt64) : Number.Binary64 :=
  .round false ((word >>> 11).toNat * Nat.pow 2 1021) 1

def draw (source : RandomSource) : Number.Binary64 × RandomSource :=
  (fraction (source.word source.taken), { source with taken := source.taken + 1 })

def cycle (words : Array UInt64) : RandomSource := ⟨fun n => words.getD (n % words.size) 0, 0⟩

/-- Scatters the bits of a word over all places. -/
def scatter (word : UInt64) : UInt64 :=
  let word := (word ^^^ (word >>> 30)) * 0xBF58476D1CE4E5B9
  let word := (word ^^^ (word >>> 27)) * 0x94D049BB133111EB
  word ^^^ (word >>> 31)

/-- The words that a seed gives, each from its number alone. -/
def ofSeed (seed : UInt64) : RandomSource :=
  ⟨fun n => scatter (seed + UInt64.ofNat (n + 1) * 0x9E3779B97F4A7C15), 0⟩

end RandomSource
end Storyline
