import IncentivePay.Formula.Recency

/-!
# What a cache holds

Every entry of a cache is the tree of a text that some command named, under
the digest of that text.  What `getOrParse` delivers is therefore always the
tree of some text with the right digest, and it is the tree of the very text
that was asked for when no other text of the run has its digest.
-/

namespace IncentivePay.Formula

/-- The texts that the commands of a list name. -/
def textsOf (commands : List CacheCommand) : List String :=
  commands.filterMap CacheCommand.text?

theorem CollisionFree.mono
    {texts fewer : List String}
    (collisionFree : CollisionFree texts)
    (among : fewer ⊆ texts) :
    CollisionFree fewer :=
  fun left isText right isOther =>
    collisionFree left (among isText) right (among isOther)

/-- A text does not collide with itself. -/
theorem CollisionFree.of_all_eq
    {texts : List String}
    {text : String}
    (same : ∀ other ∈ texts, other = text) :
    CollisionFree texts :=
  fun left isLeft right isRight _ =>
    (same left isLeft).trans (same right isRight).symm

namespace Cache

/--
Every entry holds the tree of one of the texts, under the digest of that text.
-/
def HoldsTreesOf
    (texts : List String)
    (cache : Cache) :
    Prop :=
  ∀ entry ∈ cache.entries,
    ∃ text ∈ texts,
      entry.1 = Digest.ofText text ∧ parse text = .ok entry.2

theorem holdsTreesOf_ofCapacity
    (texts : List String)
    (capacity : Nat) :
    (ofCapacity capacity).HoldsTreesOf texts := by
  intro entry member
  simp [ofCapacity] at member

/-- A promotion brings in no entry but the promoted one. -/
theorem eq_or_mem_of_mem_promote
    {cache : Cache}
    {key : Digest}
    {tree : Expr}
    {entry : Digest × Expr}
    (member : entry ∈ (cache.promote key tree).entries) :
    entry = (key, tree) ∨ entry ∈ cache.entries := by
  rcases List.mem_cons.1 (List.mem_of_mem_take member) with same | other
  · exact .inl same
  · exact .inr (List.mem_filter.1 other).1

theorem mem_entries_of_find?
    {cache : Cache}
    {key : Digest}
    {tree : Expr}
    (found : cache.find? key = some tree) :
    (key, tree) ∈ cache.entries := by
  simp only [find?, Option.map_eq_some_iff] at found
  obtain ⟨entry, foundEntry, rfl⟩ := found
  have sameKey : entry.1 = key := by simpa using List.find?_some foundEntry
  rw [← sameKey]
  exact List.mem_of_find?_eq_some foundEntry

namespace HoldsTreesOf

variable
  {texts : List String}
  {cache : Cache}

theorem promote
    (holds : cache.HoldsTreesOf texts)
    {text : String}
    {tree : Expr}
    (isText : text ∈ texts)
    (parsed : parse text = .ok tree) :
    (cache.promote (Digest.ofText text) tree).HoldsTreesOf texts := by
  intro entry member
  rcases eq_or_mem_of_mem_promote member with rfl | old
  · exact ⟨text, isText, rfl, parsed⟩
  · exact holds entry old

/-- A tree that is found was parsed from a text with the digest of the key. -/
theorem exists_of_find?
    (holds : cache.HoldsTreesOf texts)
    {key : Digest}
    {tree : Expr}
    (found : cache.find? key = some tree) :
    ∃ text ∈ texts, key = Digest.ofText text ∧ parse text = .ok tree :=
  holds _ (mem_entries_of_find? found)

/-- A tree that is found again keeps its place among the trees of the texts. -/
theorem promote_of_find?
    (holds : cache.HoldsTreesOf texts)
    {key : Digest}
    {tree : Expr}
    (found : cache.find? key = some tree) :
    (cache.promote key tree).HoldsTreesOf texts := by
  obtain ⟨text, isText, rfl, parsed⟩ := holds.exists_of_find? found
  exact holds.promote isText parsed

theorem getOrParse
    (holds : cache.HoldsTreesOf texts)
    {text : String}
    (isText : text ∈ texts) :
    (cache.getOrParse text).2.HoldsTreesOf texts := by
  rw [Cache.getOrParse_eq]
  dsimp only
  split
  · rename_i tree found
    exact holds.promote_of_find? found
  · split
    · rename_i tree parsed
      exact holds.promote isText parsed
    · exact holds

theorem get
    (holds : cache.HoldsTreesOf texts)
    (text : String) :
    (cache.get text).2.HoldsTreesOf texts := by
  unfold Cache.get
  dsimp only
  split
  · rename_i tree found
    exact holds.promote_of_find? found
  · exact holds

/-- A command on one of the texts leaves only trees of the texts. -/
theorem step
    (holds : cache.HoldsTreesOf texts)
    (command : CacheCommand)
    (among : ∀ text ∈ command.text?, text ∈ texts) :
    (cache.step command).HoldsTreesOf texts := by
  cases command with
  | get text => exact holds.get text
  | getOrParse text => exact holds.getOrParse (among text rfl)
  | clear =>
      intro entry member
      simp [Cache.step, Cache.clear] at member

/-- Commands on the texts leave only trees of the texts. -/
theorem run
    (holds : cache.HoldsTreesOf texts)
    (commands : List CacheCommand)
    (among : ∀ text ∈ textsOf commands, text ∈ texts) :
    (cache.run commands).HoldsTreesOf texts := by
  induction commands generalizing cache with
  | nil => exact holds
  | cons command commands ih =>
    have first : ∀ text ∈ command.text?, text ∈ texts := by
      intro text named
      apply among
      exact List.mem_filterMap.2 ⟨command, List.mem_cons_self, named⟩
    apply ih (holds.step command first)
    intro text named
    obtain ⟨later, isLater, names⟩ := List.mem_filterMap.1 named
    exact
      among text
        (List.mem_filterMap.2 ⟨later, List.mem_cons_of_mem _ isLater, names⟩)

/-- What `getOrParse` delivers is the tree of a text with the same digest. -/
theorem exists_of_getOrParse
    (holds : cache.HoldsTreesOf texts)
    {text : String}
    {tree : Expr}
    (delivered : (cache.getOrParse text).1 = .ok tree) :
    ∃ other ∈ text :: texts,
      Digest.ofText text = Digest.ofText other ∧ parse other = .ok tree := by
  rw [Cache.getOrParse_eq] at delivered
  dsimp only at delivered
  split at delivered
  · rename_i found
    obtain rfl := Except.ok.inj delivered
    obtain ⟨other, isText, sameDigest, parsed⟩ := holds.exists_of_find? found
    exact ⟨other, List.mem_cons_of_mem _ isText, sameDigest, parsed⟩
  · split at delivered
    · rename_i parsed
      obtain rfl := Except.ok.inj delivered
      exact ⟨text, List.mem_cons_self, rfl, parsed⟩
    · simp at delivered

/-- Without a collision, `getOrParse` delivers what the parser does. -/
theorem getOrParse_eq_parse
    (holds : cache.HoldsTreesOf texts)
    {text : String}
    (collisionFree : CollisionFree (text :: texts)) :
    (cache.getOrParse text).1 = parse text := by
  rw [Cache.getOrParse_eq]
  dsimp only
  split
  · rename_i tree found
    obtain ⟨other, isText, sameDigest, parsed⟩ := holds.exists_of_find? found
    have same : text = other :=
      collisionFree text List.mem_cons_self other
        (List.mem_cons_of_mem _ isText) sameDigest
    rw [same, parsed]
  · split
    · rename_i parsed
      exact parsed.symm
    · rename_i refused
      exact refused.symm

end HoldsTreesOf

/-- A run from a new cache leaves only trees of the texts of its commands. -/
theorem holdsTreesOf_run
    (capacity : Nat)
    (commands : List CacheCommand) :
    ((ofCapacity capacity).run commands).HoldsTreesOf (textsOf commands) :=
  (holdsTreesOf_ofCapacity _ capacity).run commands fun _ named => named

end Cache

end IncentivePay.Formula
