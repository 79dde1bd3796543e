import IncentivePay.Formula.Cache

/-!
# Recency

What a cache holds follows from the texts that were used since it was last
cleared.  A text is used when it was parsed or found by `getOrParse`, or found
by `get`; `recent` lists the different texts of a history, the last used one
first, as far as the capacity goes.

No digest occurs here: histories are lists of texts.  That a cache keeps
digests does not matter as long as no two of the texts share theirs.
-/

namespace IncentivePay.Formula

/-- What can be done with a cache. -/
inductive CacheCommand
  | get (text : String)
  | getOrParse (text : String)
  | clear
deriving DecidableEq, Repr

/-- The text that a command names. -/
def CacheCommand.text? : CacheCommand → Option String
  | .get text => some text
  | .getOrParse text => some text
  | .clear => none

namespace Cache

/-- The cache after a command. -/
def step
    (cache : Cache) :
    CacheCommand →
    Cache
  | .get text => (cache.get text).2
  | .getOrParse text => (cache.getOrParse text).2
  | .clear => cache.clear

/-- The cache after a list of commands. -/
def run
    (cache : Cache)
    (commands : List CacheCommand) :
    Cache :=
  commands.foldl step cache

end Cache

/-- No two different texts of a list have the same digest. -/
def CollisionFree (texts : List String) : Prop :=
  ∀ left ∈ texts, ∀ right ∈ texts,
    Digest.ofText left = Digest.ofText right → left = right

/-- The different texts that were used last, the most recent one first. -/
def recent
    (capacity : Nat)
    (uses : List String) :
    List String :=
  uses.eraseDups.take capacity

/-- The texts that were used, the last one first, after one more command. -/
def usesAfter
    (capacity : Nat)
    (uses : List String) :
    CacheCommand →
    List String
  | .get text => if text ∈ recent capacity uses then text :: uses else uses
  | .getOrParse text =>
      match parse text with
      | .ok _ => text :: uses
      | .error _ => uses
  | .clear => []

/-- The texts that a list of commands used since the last clearing. -/
def usesOf
    (capacity : Nat)
    (commands : List CacheCommand) :
    List String :=
  commands.foldl (usesAfter capacity) []

end IncentivePay.Formula
