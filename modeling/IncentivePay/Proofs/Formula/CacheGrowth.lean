import IncentivePay.Proofs.Formula.CacheRecency
import Mathlib.Data.List.Induction

/-!
# A larger cache holds what a smaller one does

Two caches of different capacity follow the same commands.  They do not use
the same texts: a `get` that only the larger one answers is a use there and
none in the smaller one.  Still the texts of the smaller cache stay among
those of the larger one, in the same order, because either the smaller cache
is full or neither has forgotten anything.  `Nested` is this invariant; a
command keeps it, so a run does.

Where no two texts share a digest, the entries are those of the texts.  So
whatever the smaller cache finds the larger one finds too, and it counts as
many hits at least and as many misses at most.
-/

namespace IncentivePay.Formula

/-! ## Nested texts -/

/--
Some texts are among others in the same order, and unless they are the same,
there is no room for one more of them.
-/
structure Nested
    (room : Nat)
    (few many : List String) :
    Prop where
  sublist : few.Sublist many
  fullOrSame : few.length = room ∨ few = many

/-- Without its last member, a list is among another without its last member. -/
theorem take_pred_sublist
    {few many : List String}
    (sublist : few.Sublist many) :
    (few.take (few.length - 1)).Sublist (many.take (many.length - 1)) := by
  have dropped := sublist.reverse.drop 1
  rw [List.drop_reverse, List.drop_reverse] at dropped
  exact List.reverse_sublist.1 dropped

/-- Of texts that differ, at most one is a given one. -/
theorem length_le_filter_ne_succ
    {texts : List String}
    (different : texts.Nodup)
    (text : String) :
    texts.length ≤ (texts.filter fun other => !other == text).length + 1 := by
  have erased : texts.erase text = texts.filter fun other => !other == text :=
    different.erase_eq_filter text
  rw [← erased, List.length_erase]
  split <;> omega

theorem length_recent_le
    (room : Nat)
    (uses : List String) :
    (recent room uses).length ≤ room :=
  List.length_take_le _ _

namespace Nested

variable
  {room more : Nat}
  {uses moreUses : List String}

/-- A use of one text in both histories. -/
theorem use
    (nested : Nested room (recent room uses) (recent more moreUses))
    (positive : 0 < room)
    (ordered : room ≤ more)
    (text : String) :
    Nested room (recent room (text :: uses))
      (recent more (text :: moreUses)) := by
  rw [recent_cons positive, recent_cons (Nat.lt_of_lt_of_le positive ordered)]
  have fewFit := length_recent_le room uses
  have manyFit := length_recent_le more moreUses
  have different := nodup_recent room uses
  generalize recent room uses = few at *
  generalize recent more moreUses = many at *
  obtain ⟨room, rfl⟩ := Nat.exists_eq_add_one_of_ne_zero (Nat.ne_of_gt positive)
  obtain ⟨more, rfl⟩ : ∃ least, more = least + 1 :=
    ⟨more - 1, by omega⟩
  have othersSublist := nested.sublist.filter fun other => !other == text
  have atMostOne := length_le_filter_ne_succ different text
  have fewOthers := List.length_filter_le (fun other => !other == text) few
  have manyOthers := List.length_filter_le (fun other => !other == text) many
  rw [List.take_succ_cons, List.take_succ_cons]
  constructor
  · apply List.Sublist.cons_cons
    by_cases fits : (many.filter fun other => !other == text).length ≤ more
    · rw [List.take_of_length_le fits]
      exact (List.take_sublist _ _).trans othersSublist
    · -- The larger cache is full and does not have the text, so neither has
      -- the other.
      have absent : (many.filter fun other => !other == text) = many :=
        List.filter_sublist.eq_of_length (by omega)
      have absentToo : (few.filter fun other => !other == text) = few := by
        apply List.filter_eq_self.2
        intro other member
        exact List.filter_eq_self.1 absent other (nested.sublist.subset member)
      rw [absent] at fits
      rw [absent, absentToo]
      rcases nested.fullOrSame with full | same
      · have dropped := take_pred_sublist nested.sublist
        rwa [full, show many.length = more + 1 by omega] at dropped
      · rw [same] at fewFit ⊢
        rw [show room = more by omega]
  · by_cases enough : room ≤ (few.filter fun other => !other == text).length
    · left
      rw [List.length_cons, List.length_take_of_le enough]
    · right
      rcases nested.fullOrSame with full | same
      · omega
      · rw [same] at enough ⊢
        rw [List.take_of_length_le (by omega), List.take_of_length_le (by omega)]

/-- A use of a text that only the larger history still has. -/
theorem use_many
    (nested : Nested room (recent room uses) (recent more moreUses))
    (positive : 0 < more)
    {text : String}
    (present : text ∈ recent more moreUses)
    (absent : text ∉ recent room uses) :
    Nested room (recent room uses) (recent more (text :: moreUses)) := by
  rw [recent_cons positive]
  have manyFit := length_recent_le more moreUses
  generalize recent room uses = few at *
  generalize recent more moreUses = many at *
  have fewer :
      (many.filter fun other => !other == text).length < many.length :=
    List.length_filter_lt_length_iff_exists.2 ⟨text, present, by simp⟩
  rw [List.take_of_length_le (by rw [List.length_cons]; omega)]
  have untouched : (few.filter fun other => !other == text) = few := by
    apply List.filter_eq_self.2
    intro other member
    have : other ≠ text := fun same => absent (same ▸ member)
    simpa using this
  constructor
  · have othersSublist := nested.sublist.filter fun other => !other == text
    rw [untouched] at othersSublist
    exact othersSublist.cons text
  · rcases nested.fullOrSame with full | same
    · exact .inl full
    · exact absurd present (same ▸ absent)

/-- A command keeps the texts of the smaller cache among those of the larger. -/
theorem step
    (nested : Nested room (recent room uses) (recent more moreUses))
    (positive : 0 < room)
    (ordered : room ≤ more)
    (command : CacheCommand) :
    Nested room
      (recent room (usesAfter room uses command))
      (recent more (usesAfter more moreUses command)) := by
  cases command with
  | get text =>
      simp only [usesAfter]
      by_cases isFew : text ∈ recent room uses
      · rw [if_pos isFew, if_pos (nested.sublist.subset isFew)]
        exact nested.use positive ordered text
      · rw [if_neg isFew]
        by_cases isMany : text ∈ recent more moreUses
        · rw [if_pos isMany]
          exact
            nested.use_many (Nat.lt_of_lt_of_le positive ordered) isMany isFew
        · rw [if_neg isMany]
          exact nested
  | getOrParse text =>
      simp only [usesAfter]
      cases parse text with
      | ok tree => exact nested.use positive ordered text
      | error error => exact nested
  | clear =>
      simp only [usesAfter, recent_nil]
      exact ⟨.slnil, .inr rfl⟩

/-- Commands keep the texts of the smaller cache among those of the larger. -/
theorem run
    (nested : Nested room (recent room uses) (recent more moreUses))
    (positive : 0 < room)
    (ordered : room ≤ more)
    (commands : List CacheCommand) :
    Nested room
      (recent room (commands.foldl (usesAfter room) uses))
      (recent more (commands.foldl (usesAfter more) moreUses)) := by
  induction commands generalizing uses moreUses with
  | nil => exact nested
  | cons command commands ih =>
      exact ih (nested.step positive ordered command)

end Nested

/-- The texts of a new cache and of a larger one, after the same commands. -/
theorem nested_usesOf
    {room more : Nat}
    (positive : 0 < room)
    (ordered : room ≤ more)
    (commands : List CacheCommand) :
    Nested room (recent room (usesOf room commands))
      (recent more (usesOf more commands)) := by
  have start : Nested room (recent room []) (recent more []) := by
    rw [recent_nil, recent_nil]
    exact ⟨.slnil, .inr rfl⟩
  exact start.run positive ordered commands

/-! ## From texts to entries -/

/-- A text has one entry. -/
theorem IsEntryOf.unique
    {text : String}
    {entry other : Digest × Expr}
    (isEntry : IsEntryOf text entry)
    (isOther : IsEntryOf text other) :
    entry = other := by
  apply Prod.ext
  · exact isEntry.1.trans isOther.1.symm
  · exact Except.ok.inj (isEntry.2.symm.trans isOther.2)

/-- The entries of texts that are among others are among theirs. -/
theorem sublist_of_forall₂_isEntryOf
    {few many : List String}
    (sublist : few.Sublist many)
    {fewEntries manyEntries : List (Digest × Expr)}
    (fewKept : List.Forall₂ IsEntryOf few fewEntries)
    (manyKept : List.Forall₂ IsEntryOf many manyEntries) :
    fewEntries.Sublist manyEntries := by
  induction sublist generalizing fewEntries manyEntries with
  | slnil =>
      cases fewKept
      exact List.nil_sublist _
  | cons text _ ih =>
      cases manyKept with
      | cons _ othersKept => exact (ih fewKept othersKept).cons _
  | cons_cons text _ ih =>
      cases fewKept with
      | cons isEntry fewOthers =>
          cases manyKept with
          | cons isOther manyOthers =>
              rw [isEntry.unique isOther]
              exact (ih fewOthers manyOthers).cons_cons _

namespace Cache

variable
  {capacity larger : Nat}
  {commands : List CacheCommand}

theorem max_one_le_max_one (ordered : capacity ≤ larger) :
    max capacity 1 ≤ max larger 1 := by
  omega

theorem entries_run_sublist
    (ordered : capacity ≤ larger)
    (collisionFree : CollisionFree (textsOf commands)) :
    ((ofCapacity capacity).run commands).entries.Sublist
      ((ofCapacity larger).run commands).entries :=
  sublist_of_forall₂_isEntryOf
    (nested_usesOf (Nat.le_max_right _ _) (max_one_le_max_one ordered)
      commands).sublist
    (keeps_run capacity collisionFree)
    (keeps_run larger collisionFree)

/-- An entry is found under its key, because no other has the key. -/
theorem HoldsTreesOf.find?_of_mem_entries
    {texts : List String}
    {cache : Cache}
    (holds : cache.HoldsTreesOf texts)
    (collisionFree : CollisionFree texts)
    {key : Digest}
    {tree : Expr}
    (member : (key, tree) ∈ cache.entries) :
    cache.find? key = some tree := by
  obtain ⟨text, isText, sameDigest, parsed⟩ := holds _ member
  cases found : cache.find? key with
  | none =>
      simp only [find?, Option.map_eq_none_iff, List.find?_eq_none] at found
      exact absurd (decide_eq_true rfl) (found _ member)
  | some other =>
      obtain ⟨otherText, isOther, otherDigest, otherParsed⟩ :=
        holds.exists_of_find? found
      obtain rfl : text = otherText :=
        collisionFree text isText otherText isOther
          (sameDigest.symm.trans otherDigest)
      exact congrArg some (Except.ok.inj (otherParsed.symm.trans parsed))

/-- What the smaller cache finds, the larger one finds. -/
theorem find?_run_of_find?
    (ordered : capacity ≤ larger)
    (collisionFree : CollisionFree (textsOf commands))
    {key : Digest}
    {tree : Expr}
    (found : ((ofCapacity capacity).run commands).find? key = some tree) :
    ((ofCapacity larger).run commands).find? key = some tree :=
  (holdsTreesOf_run larger commands).find?_of_mem_entries collisionFree
    ((entries_run_sublist ordered collisionFree).subset
      (mem_entries_of_find? found))

/-! ## Counts -/

theorem run_concat
    (cache : Cache)
    (past : List CacheCommand)
    (command : CacheCommand) :
    cache.run (past ++ [command]) = (cache.run past).step command :=
  List.foldl_concat step cache command past

/-- The next command of a run is answered from the texts that are present. -/
theorem answers_run
    (capacity : Nat)
    {past : List CacheCommand}
    {command : CacheCommand}
    (collisionFree : CollisionFree (textsOf (past ++ [command]))) :
    ((ofCapacity capacity).run past).Answers
      (recent (max capacity 1) (usesOf (max capacity 1) past)) command := by
  have texts :
      textsOf (past ++ [command]) = textsOf past ++ command.text?.toList := by
    unfold textsOf
    rw [List.filterMap_append, List.filterMap_cons, List.filterMap_nil]
    cases command.text? <;> rfl
  rw [texts] at collisionFree
  have kept :=
    keeps_run capacity (collisionFree.mono (List.subset_append_left _ _))
  apply kept.answers command
  apply collisionFree.mono
  intro text member
  have := @recent_usesOf_subset (max capacity 1) past text
  grind

/-- The larger cache has as many hits at least, and as many misses at most. -/
theorem counts_run
    (ordered : capacity ≤ larger)
    (collisionFree : CollisionFree (textsOf commands)) :
    ((ofCapacity capacity).run commands).hits ≤
        ((ofCapacity larger).run commands).hits ∧
      ((ofCapacity larger).run commands).misses ≤
        ((ofCapacity capacity).run commands).misses := by
  induction commands using List.reverseRecOn with
  | nil => exact ⟨Nat.le_refl _, Nat.le_refl _⟩
  | append_singleton past command ih =>
      have pastNamed : textsOf past ⊆ textsOf (past ++ [command]) :=
        ((List.prefix_append past [command]).filterMap _).subset
      obtain ⟨hits, misses⟩ := ih (collisionFree.mono pastNamed)
      have answers := answers_run capacity collisionFree
      have answersToo := answers_run larger collisionFree
      have among :=
        (nested_usesOf (Nat.le_max_right _ _) (max_one_le_max_one ordered)
          past).sublist.subset
      rw [run_concat, run_concat]
      cases command with
      | get text =>
          obtain ⟨-, sameHits, sameMisses⟩ := answers
          obtain ⟨-, sameHitsToo, sameMissesToo⟩ := answersToo
          simp only [step]
          omega
      | getOrParse text =>
          obtain ⟨-, counted, missed, -⟩ := answers
          obtain ⟨-, countedToo, missedToo, -⟩ := answersToo
          have isPresent := @among text
          simp only [step]
          grind
      | clear => exact ⟨hits, misses⟩

/-! ## Inclusion -/

/--
After any commands, the entries of a cache are among those of a larger one in
the same order; what it finds, the larger one finds, and where it counts a hit
the larger one does; so the larger one has as many hits at least, and as many
misses at most.
-/
theorem run_inclusion
    (ordered : capacity ≤ larger)
    (collisionFree : CollisionFree (textsOf commands)) :
    let small := (ofCapacity capacity).run commands
    let large := (ofCapacity larger).run commands
    small.entries.Sublist large.entries ∧
      (∀ text tree,
        (small.get text).1 = some tree → (large.get text).1 = some tree) ∧
      (∀ text,
        (small.getOrParse text).2.hits = small.hits + 1 →
          (large.getOrParse text).2.hits = large.hits + 1) ∧
      small.hits ≤ large.hits ∧
      large.misses ≤ small.misses := by
  intro small large
  have finds (key : Digest) (tree : Expr) :
      small.find? key = some tree → large.find? key = some tree :=
    find?_run_of_find? ordered collisionFree
  refine ⟨entries_run_sublist ordered collisionFree, ?_, ?_,
    counts_run ordered collisionFree⟩
  · intro text tree answered
    cases found : small.find? (Digest.ofText text) with
    | none => simp [Cache.get, found] at answered
    | some other =>
        have isSame : other = tree := by simpa [Cache.get, found] using answered
        simp [Cache.get, finds _ _ found, isSame]
  · intro text counted
    cases found : small.find? (Digest.ofText text) with
    | none =>
        simp only [Cache.getOrParse_eq, found] at counted
        split at counted <;> simp [promote] at counted
    | some tree => simp [Cache.getOrParse_eq, finds _ _ found]

/--
With room for two texts, the second `sales` is a hit; with room for one it is
not.
-/
theorem run_inclusion_sales_years :
    let commands : List CacheCommand :=
      [.getOrParse "sales", .getOrParse "years", .getOrParse "sales"]
    let small := (ofCapacity 0).run commands
    let large := (ofCapacity 2).run commands
    small.Keeps ["sales"] ∧
      large.Keeps ["sales", "years"] ∧
      small.entries.Sublist large.entries ∧
      small.hits ≤ large.hits ∧
      (small.hits, small.misses) = (0, 3) ∧
      (large.hits, large.misses) = (1, 2) := by
  intro commands small large
  have differ : Digest.ofText "sales" ≠ Digest.ofText "years" := by
    decide +kernel
  have sales := parse_name .sales
  have years := parse_name .years
  simp only [Variable.name] at sales years
  have collisionFree : CollisionFree (textsOf commands) := by
    intro left isLeft right isRight sameDigest
    simp only [commands, textsOf, List.filterMap_cons, CacheCommand.text?,
      List.filterMap_nil, List.mem_cons, List.not_mem_nil, or_false]
      at isLeft isRight
    grind
  have fewUsed : recent 1 (usesOf 1 commands) = ["sales"] := by
    simp only [commands, usesOf, List.foldl_cons, List.foldl_nil, usesAfter,
      sales, years]
    decide
  have manyUsed : recent 2 (usesOf 2 commands) = ["sales", "years"] := by
    simp only [commands, usesOf, List.foldl_cons, List.foldl_nil, usesAfter,
      sales, years]
    decide
  obtain ⟨sublist, -, -, hits, -⟩ :=
    @run_inclusion 0 2 commands (by decide) collisionFree
  refine ⟨fewUsed ▸ keeps_run 0 collisionFree,
    manyUsed ▸ keeps_run 2 collisionFree, sublist, hits, ?_, ?_⟩
  · simp [small, commands, run, step, ofCapacity, Cache.getOrParse_eq, find?,
      promote, sales, years, differ, differ.symm]
  · simp [large, commands, run, step, ofCapacity, Cache.getOrParse_eq, find?,
      promote, sales, years, differ, differ.symm]

end Cache

end IncentivePay.Formula
