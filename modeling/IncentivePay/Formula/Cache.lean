import IncentivePay.Formula.Grammar
import IncentivePay.Text.Digest

/-!
# The cache of parsed formulas

A cache keeps the trees of the formulas that were used last, under the digest
of their text and the most recent first, and forgets the least recent ones
beyond its capacity.  It counts how often a formula that had to be parsed was
found and how often it was not; a text that does not parse is not kept.

The counters of the program have sixty-four bits and begin again at nought
after the last number that these hold.  They are natural numbers here, so what
is said of the counts holds of fewer than that many look-ups.
-/

namespace IncentivePay.Formula

/-- The parsed formulas that were used last. -/
structure Cache where
  capacity : Nat
  entries : List (Digest × Expr)
  hits : Nat
  misses : Nat
deriving DecidableEq

namespace Cache

/-- An empty cache; it has room for one formula at least. -/
def ofCapacity (capacity : Nat) : Cache where
  capacity := max capacity 1
  entries := []
  hits := 0
  misses := 0

/-- The number of formulas in a cache. -/
def size (cache : Cache) : Nat :=
  cache.entries.length

/-- The tree under a key. -/
def find?
    (cache : Cache)
    (key : Digest) :
    Option Expr :=
  (cache.entries.find? fun entry => entry.1 = key).map fun entry => entry.2

/-- Puts a tree first, in the place of any other under its key. -/
def promote
    (cache : Cache)
    (key : Digest)
    (tree : Expr) :
    Cache :=
  let others := cache.entries.filter fun entry => entry.1 ≠ key
  { cache with entries := ((key, tree) :: others).take cache.capacity }

/--
Looks a formula up, which makes it the most recent one; nothing is counted.
-/
def get
    (cache : Cache)
    (text : String) :
    Option Expr × Cache :=
  let key := Digest.ofText text
  match cache.find? key with
  | some tree => (some tree, cache.promote key tree)
  | none => (none, cache)

/--
Keeps the tree of a formula, unless someone else has put one there since it
was looked up: then that one is kept and delivered.
-/
def keep
    (cache : Cache)
    (key : Digest)
    (tree : Expr) :
    Expr × Cache :=
  match cache.find? key with
  | some existing => (existing, cache.promote key existing)
  | none => (tree, cache.promote key tree)

/-- The tree of a formula, which is parsed and kept when it is not there. -/
def getOrParse
    (cache : Cache)
    (text : String) :
    Except SyntaxError Expr × Cache :=
  let key := Digest.ofText text
  match cache.find? key with
  | some tree =>
      (.ok tree, { cache.promote key tree with hits := cache.hits + 1 })
  | none =>
      let missed := { cache with misses := cache.misses + 1 }
      match parse text with
      | .ok tree =>
          let (kept, cache) := missed.keep key tree
          (.ok kept, cache)
      | .error error => (.error error, missed)

/--
As long as callers take turns nobody puts a tree between the two look-ups, so
the second one finds nothing either.
-/
theorem getOrParse_eq (cache : Cache) (text : String) :
    cache.getOrParse text =
      match cache.find? (Digest.ofText text) with
      | some tree =>
          (.ok tree,
            { cache.promote (Digest.ofText text) tree with
              hits := cache.hits + 1 })
      | none =>
          match parse text with
          | .ok tree =>
              (.ok tree,
                { cache.promote (Digest.ofText text) tree with
                  misses := cache.misses + 1 })
          | .error error =>
              (.error error, { cache with misses := cache.misses + 1 }) := by
  simp only [getOrParse]
  cases found : cache.find? (Digest.ofText text) with
  | some tree => rfl
  | none =>
      have missed :
          find? { cache with misses := cache.misses + 1 }
              (Digest.ofText text) =
            none :=
        found
      cases parse text with
      | ok tree =>
          simp only [keep, missed]
          rfl
      | error error => rfl

/-- Forgets every formula but keeps the counts. -/
def clear (cache : Cache) : Cache :=
  { cache with entries := [] }

end Cache

end IncentivePay.Formula
