import IncentivePay.Proofs.Formula.CacheContents
import IncentivePay.Proofs.Formula.RoundTrip
import Mathlib.Data.List.Forall2
import Mathlib.Data.List.Nodup

/-!
# A cache keeps the recent texts

Without a collision of digests, the entries of a cache are those of the texts
that were used last, one entry for each text and in the order of their last
use.  `Cache.Keeps` relates the entries to a list of texts; each command takes
the recent texts of a history to those of the history with the command, so a
run of commands does, too.

What a command answers and counts follows from the texts that are present, and
says nothing about digests any more.
-/

namespace IncentivePay.Formula

/-! ## Recent texts -/

/--
What is kept of the different texts are the different texts that are kept.
-/
theorem eraseDups_filter
    (keeps : String → Bool)
    (texts : List String) :
    (texts.filter keeps).eraseDups = texts.eraseDups.filter keeps := by
  -- What follows a text is first freed of it, so the recursion is on the length.
  match texts with
  | [] => rfl
  | text :: others =>
      have shorter :
          (others.filter fun other => !other == text).length <
            (text :: others).length :=
        Nat.lt_succ_of_le (List.length_filter_le _ _)
      have ih := eraseDups_filter keeps (others.filter fun other => !other == text)
      cases isKept : keeps text with
      | true =>
          rw [List.filter_cons_of_pos isKept, List.eraseDups_cons,
            List.eraseDups_cons, List.filter_cons_of_pos isKept, ← ih,
            List.filter_comm]
      | false =>
          have others_kept :
              ((others.filter fun other => !other == text).filter keeps) =
                others.filter keeps := by
            rw [List.filter_filter]
            apply List.filter_congr
            intro other _
            by_cases same : other = text
            · simp [same, isKept]
            · simp [same]
          rw [List.filter_cons_of_neg (by simp [isKept]), List.eraseDups_cons,
            List.filter_cons_of_neg (by simp [isKept]), ← ih, others_kept]
termination_by texts.length
decreasing_by exact shorter

theorem nodup_eraseDups (texts : List String) :
    texts.eraseDups.Nodup := by
  match texts with
  | [] => exact List.nodup_nil
  | text :: others =>
      have shorter :
          (others.filter fun other => !other == text).length <
            (text :: others).length :=
        Nat.lt_succ_of_le (List.length_filter_le _ _)
      rw [List.eraseDups_cons, List.nodup_cons]
      exact ⟨by simp, nodup_eraseDups _⟩
termination_by texts.length
decreasing_by exact shorter

/-- One text less leaves all but one of the first texts among the first ones. -/
theorem take_filter_ne
    {texts : List String}
    (different : texts.Nodup)
    (text : String)
    (count : Nat) :
    ((texts.take (count + 1)).filter fun other => !other == text).take count =
      (texts.filter fun other => !other == text).take count := by
  induction texts generalizing count with
  | nil => rfl
  | cons first others ih =>
      obtain ⟨notLater, different⟩ := List.nodup_cons.1 different
      rw [List.take_succ_cons]
      by_cases same : first = text
      · subst same
        have keepsAll :
            ∀ {texts : List String},
              first ∉ texts →
              (texts.filter fun other => !other == first) = texts := by
          intro texts absent
          apply List.filter_eq_self.2
          intro other member
          have : other ≠ first := fun same => absent (same ▸ member)
          simpa using this
        rw [List.filter_cons_of_neg (by simp), List.filter_cons_of_neg (by simp),
          keepsAll notLater,
          keepsAll fun member => notLater (List.mem_of_mem_take member),
          List.take_take, Nat.min_self]
      · rw [List.filter_cons_of_pos (by simpa using same),
          List.filter_cons_of_pos (by simpa using same)]
        cases count with
        | zero => rfl
        | succ count => rw [List.take_succ_cons, List.take_succ_cons, ih different]

@[simp]
theorem recent_nil (room : Nat) :
    recent room [] = [] :=
  List.take_nil

theorem mem_of_mem_recent
    {room : Nat}
    {uses : List String}
    {text : String}
    (member : text ∈ recent room uses) :
    text ∈ uses :=
  List.mem_eraseDups.1 (List.mem_of_mem_take member)

theorem nodup_recent
    (room : Nat)
    (uses : List String) :
    (recent room uses).Nodup :=
  (List.take_sublist _ _).nodup (nodup_eraseDups uses)

/-- A use puts its text first, in the place of any earlier use of it. -/
theorem recent_cons
    {room : Nat}
    (positive : 0 < room)
    (uses : List String)
    (text : String) :
    recent room (text :: uses) =
      (text :: (recent room uses).filter fun other => !other == text).take
        room := by
  obtain ⟨others, rfl⟩ := Nat.exists_eq_add_one_of_ne_zero (Nat.ne_of_gt positive)
  unfold recent
  rw [List.eraseDups_cons, eraseDups_filter, List.take_succ_cons,
    List.take_succ_cons, take_filter_ne (nodup_eraseDups uses)]

/-! ## Entries of texts -/

/-- An entry keeps the tree of a text under the digest of the text. -/
def IsEntryOf
    (text : String)
    (entry : Digest × Expr) :
    Prop :=
  entry.1 = Digest.ofText text ∧ parse text = .ok entry.2

namespace Cache

/-- The entries of a cache are those of the texts of a list, in its order. -/
def Keeps
    (cache : Cache)
    (texts : List String) :
    Prop :=
  List.Forall₂ IsEntryOf texts cache.entries

namespace Keeps

variable
  {cache : Cache}
  {texts : List String}
  {text : String}

theorem holdsTreesOf (kept : cache.Keeps texts) :
    cache.HoldsTreesOf texts := by
  unfold Keeps at kept
  unfold HoldsTreesOf
  generalize cache.entries = entries at kept ⊢
  induction kept with
  | nil => simp
  | @cons text entry texts entries isEntry _ ih =>
      intro other member
      rcases List.mem_cons.1 member with rfl | later
      · exact ⟨text, List.mem_cons_self, isEntry⟩
      · obtain ⟨text, isText, agrees⟩ := ih other later
        exact ⟨text, List.mem_cons_of_mem _ isText, agrees⟩

theorem exists_entry
    (kept : cache.Keeps texts)
    (present : text ∈ texts) :
    ∃ entry ∈ cache.entries, IsEntryOf text entry := by
  unfold Keeps at kept
  generalize cache.entries = entries at kept ⊢
  induction kept with
  | nil => contradiction
  | cons isEntry _ ih =>
      rcases List.mem_cons.1 present with rfl | later
      · exact ⟨_, List.mem_cons_self, isEntry⟩
      · obtain ⟨entry, member, agrees⟩ := ih later
        exact ⟨entry, List.mem_cons_of_mem _ member, agrees⟩

/-- A text that is present is found, with its tree. -/
theorem exists_find?_of_mem
    (kept : cache.Keeps texts)
    (collisionFree : CollisionFree (text :: texts))
    (present : text ∈ texts) :
    ∃ tree,
      parse text = .ok tree ∧
        cache.find? (Digest.ofText text) = some tree := by
  obtain ⟨entry, member, sameDigest, -⟩ := kept.exists_entry present
  cases found : cache.find? (Digest.ofText text) with
  | none =>
      simp only [find?, Option.map_eq_none_iff, List.find?_eq_none] at found
      exact absurd (decide_eq_true sameDigest) (found entry member)
  | some tree =>
      obtain ⟨other, isText, sameDigest, parsed⟩ :=
        kept.holdsTreesOf.exists_of_find? found
      obtain rfl : text = other :=
        collisionFree text List.mem_cons_self other
          (List.mem_cons_of_mem _ isText) sameDigest
      exact ⟨tree, parsed, rfl⟩

theorem find?_of_not_mem
    (kept : cache.Keeps texts)
    (collisionFree : CollisionFree (text :: texts))
    (absent : text ∉ texts) :
    cache.find? (Digest.ofText text) = none := by
  rw [Option.eq_none_iff_forall_not_mem]
  intro tree found
  obtain ⟨other, isText, sameDigest, -⟩ :=
    kept.holdsTreesOf.exists_of_find? found
  have same : text = other :=
    collisionFree text List.mem_cons_self other
      (List.mem_cons_of_mem _ isText) sameDigest
  exact absent (same ▸ isText)

/-- The entries of the other texts are those under the other digests. -/
theorem filter_ne
    (kept : cache.Keeps texts)
    (collisionFree : CollisionFree (text :: texts)) :
    List.Forall₂ IsEntryOf
      (texts.filter fun other => !other == text)
      (cache.entries.filter fun entry => entry.1 ≠ Digest.ofText text) := by
  unfold Keeps at kept
  generalize cache.entries = entries at kept ⊢
  induction kept with
  | nil => exact .nil
  | @cons first entry others entries isEntry kept ih =>
      have collisionFreeLater : CollisionFree (text :: others) :=
        collisionFree.mono (List.cons_subset_cons _ (List.subset_cons_self _ _))
      by_cases same : first = text
      · rw [List.filter_cons_of_neg (by simp [same]),
          List.filter_cons_of_neg (by simp [isEntry.1, same])]
        exact ih collisionFreeLater
      · have otherDigest : entry.1 ≠ Digest.ofText text := by
          rw [isEntry.1]
          intro sameDigest
          exact
            same
              (collisionFree first (by simp) text List.mem_cons_self sameDigest)
        rw [List.filter_cons_of_pos (by simpa using same),
          List.filter_cons_of_pos (by simpa using otherDigest)]
        exact .cons isEntry (ih collisionFreeLater)

/-- A promotion is a use of the promoted text. -/
theorem promote
    {uses : List String}
    {tree : Expr}
    (kept : cache.Keeps (recent cache.capacity uses))
    (positive : 0 < cache.capacity)
    (collisionFree : CollisionFree (text :: recent cache.capacity uses))
    (parsed : parse text = .ok tree) :
    (cache.promote (Digest.ofText text) tree).Keeps
      (recent cache.capacity (text :: uses)) := by
  rw [recent_cons positive]
  exact
    List.forall₂_take cache.capacity
      (.cons ⟨rfl, parsed⟩ (kept.filter_ne collisionFree))

/-! ## What a command does -/

theorem get_of_mem
    (kept : cache.Keeps texts)
    (collisionFree : CollisionFree (text :: texts))
    (present : text ∈ texts) :
    ∃ tree,
      parse text = .ok tree ∧
        cache.get text =
          (some tree, cache.promote (Digest.ofText text) tree) := by
  obtain ⟨tree, parsed, found⟩ := kept.exists_find?_of_mem collisionFree present
  exact ⟨tree, parsed, by simp [Cache.get, found]⟩

theorem get_of_not_mem
    (kept : cache.Keeps texts)
    (collisionFree : CollisionFree (text :: texts))
    (absent : text ∉ texts) :
    cache.get text = (none, cache) := by
  simp [Cache.get, kept.find?_of_not_mem collisionFree absent]

theorem getOrParse_of_mem
    (kept : cache.Keeps texts)
    (collisionFree : CollisionFree (text :: texts))
    (present : text ∈ texts) :
    ∃ tree,
      parse text = .ok tree ∧
        cache.getOrParse text =
          (.ok tree,
            { cache.promote (Digest.ofText text) tree with
              hits := cache.hits + 1 }) := by
  obtain ⟨tree, parsed, found⟩ := kept.exists_find?_of_mem collisionFree present
  exact ⟨tree, parsed, by simp [Cache.getOrParse_eq, found]⟩

theorem getOrParse_of_not_mem
    (kept : cache.Keeps texts)
    (collisionFree : CollisionFree (text :: texts))
    (absent : text ∉ texts) :
    cache.getOrParse text =
      match parse text with
      | .ok tree =>
          (.ok tree,
            { cache.promote (Digest.ofText text) tree with
              misses := cache.misses + 1 })
      | .error error =>
          (.error error, { cache with misses := cache.misses + 1 }) := by
  have missing := kept.find?_of_not_mem collisionFree absent
  cases parsed : parse text with
  | ok tree => simp [Cache.getOrParse_eq, missing, parsed]
  | error error => simp [Cache.getOrParse_eq, missing, parsed]

end Keeps

@[simp]
theorem capacity_step
    (cache : Cache)
    (command : CacheCommand) :
    (cache.step command).capacity = cache.capacity := by
  cases command with
  | get text =>
      simp only [step, Cache.get]
      split <;> rfl
  | getOrParse text =>
      simp only [step, Cache.getOrParse_eq]
      split
      · rfl
      · split <;> rfl
  | clear => rfl

end Cache

/-! ## One more command -/

/-- A command asks for the tree of a text, which is parsed if need be. -/
def CacheCommand.isParse : CacheCommand → Bool
  | .getOrParse _ => true
  | _ => false

theorem textsOf_cons
    (command : CacheCommand)
    (commands : List CacheCommand) :
    textsOf (command :: commands) =
      command.text?.toList ++ textsOf commands := by
  unfold textsOf
  rw [List.filterMap_cons]
  cases command.text? <;> rfl

/-- Only the text of a command is new among the texts that were used. -/
theorem usesAfter_subset
    (room : Nat)
    (uses : List String)
    (command : CacheCommand) :
    usesAfter room uses command ⊆ command.text?.toList ++ uses := by
  have withText (text : String) :
      uses ⊆ text :: uses ∧ text :: uses ⊆ text :: uses :=
    ⟨List.subset_cons_self _ _, List.Subset.refl _⟩
  cases command with
  | get text =>
      simp only [usesAfter]
      split
      · exact (withText text).2
      · exact (withText text).1
  | getOrParse text =>
      simp only [usesAfter]
      split
      · exact (withText text).2
      · exact (withText text).1
  | clear => exact List.nil_subset _

namespace Cache

/--
What a cache with the entries of some texts answers to a command, and what it
counts for it: only `getOrParse` is counted, as a hit when its text is
present, and it answers what the parser does; a text that does not parse
leaves the entries as they are.
-/
def Answers
    (cache : Cache)
    (present : List String) :
    CacheCommand →
    Prop
  | .get text =>
      (if text ∈ present then
          ∃ tree, parse text = .ok tree ∧ (cache.get text).1 = some tree
        else
          (cache.get text).1 = none) ∧
        (cache.get text).2.hits = cache.hits ∧
        (cache.get text).2.misses = cache.misses
  | .getOrParse text =>
      (cache.getOrParse text).1 = parse text ∧
        (cache.getOrParse text).2.hits =
          cache.hits + (if text ∈ present then 1 else 0) ∧
        (cache.getOrParse text).2.misses =
          cache.misses + (if text ∈ present then 0 else 1) ∧
        ∀ error,
          parse text = .error error →
          (cache.getOrParse text).2 = { cache with misses := cache.misses + 1 }
  | .clear =>
      cache.clear.hits = cache.hits ∧ cache.clear.misses = cache.misses

namespace Keeps

variable
  {cache : Cache}
  {present uses : List String}

theorem answers
    (kept : cache.Keeps present)
    (command : CacheCommand)
    (collisionFree : CollisionFree (command.text?.toList ++ present)) :
    cache.Answers present command := by
  cases command with
  | get text =>
      simp only [Answers]
      by_cases isPresent : text ∈ present
      · obtain ⟨tree, parsed, answer⟩ :=
          kept.get_of_mem collisionFree isPresent
        rw [if_pos isPresent, answer]
        exact ⟨⟨tree, parsed, rfl⟩, rfl, rfl⟩
      · rw [if_neg isPresent, kept.get_of_not_mem collisionFree isPresent]
        exact ⟨rfl, rfl, rfl⟩
  | getOrParse text =>
      simp only [Answers]
      by_cases isPresent : text ∈ present
      · obtain ⟨tree, parsed, answer⟩ :=
          kept.getOrParse_of_mem collisionFree isPresent
        rw [if_pos isPresent, if_pos isPresent, answer, parsed]
        exact ⟨rfl, rfl, rfl, by simp⟩
      · rw [if_neg isPresent, if_neg isPresent,
          kept.getOrParse_of_not_mem collisionFree isPresent]
        cases parse text with
        | ok tree => exact ⟨rfl, rfl, rfl, by simp⟩
        | error error => exact ⟨rfl, rfl, rfl, fun _ _ => rfl⟩
  | clear => exact ⟨rfl, rfl⟩

/--
A command takes the recent texts to those of the history with the command.
-/
theorem step
    (kept : cache.Keeps (recent cache.capacity uses))
    (positive : 0 < cache.capacity)
    (command : CacheCommand)
    (collisionFree :
      CollisionFree (command.text?.toList ++ recent cache.capacity uses)) :
    (cache.step command).Keeps
      (recent cache.capacity (usesAfter cache.capacity uses command)) := by
  cases command with
  | get text =>
      simp only [Cache.step, usesAfter]
      by_cases isPresent : text ∈ recent cache.capacity uses
      · obtain ⟨tree, parsed, answer⟩ :=
          kept.get_of_mem collisionFree isPresent
        rw [if_pos isPresent, answer]
        exact kept.promote positive collisionFree parsed
      · rw [if_neg isPresent, kept.get_of_not_mem collisionFree isPresent]
        exact kept
  | getOrParse text =>
      simp only [Cache.step, usesAfter]
      by_cases isPresent : text ∈ recent cache.capacity uses
      · obtain ⟨tree, parsed, answer⟩ :=
          kept.getOrParse_of_mem collisionFree isPresent
        rw [answer, parsed]
        exact kept.promote positive collisionFree parsed
      · rw [kept.getOrParse_of_not_mem collisionFree isPresent]
        cases parsed : parse text with
        | ok tree => exact kept.promote positive collisionFree parsed
        | error error => exact kept
  | clear =>
      rw [usesAfter, recent_nil]
      exact .nil

/-- Commands take the recent texts to those of the history with the commands. -/
theorem run
    (kept : cache.Keeps (recent cache.capacity uses))
    (positive : 0 < cache.capacity)
    (commands : List CacheCommand)
    (collisionFree : CollisionFree (textsOf commands ++ uses)) :
    (cache.run commands).Keeps
      (recent cache.capacity
        (commands.foldl (usesAfter cache.capacity) uses)) := by
  induction commands generalizing cache uses with
  | nil => exact kept
  | cons command commands ih =>
      rw [textsOf_cons, List.append_assoc] at collisionFree
      -- The uses are part of the induction: what was pushed out may come back.
      have first :
          command.text?.toList ++ recent cache.capacity uses ⊆
            command.text?.toList ++ (textsOf commands ++ uses) := by
        intro text member
        have := @mem_of_mem_recent cache.capacity uses text
        grind
      have later :
          textsOf commands ++ usesAfter cache.capacity uses command ⊆
            command.text?.toList ++ (textsOf commands ++ uses) := by
        intro text member
        have := @usesAfter_subset cache.capacity uses command text
        grind
      have next :=
        @ih (cache.step command) (usesAfter cache.capacity uses command)
      rw [capacity_step] at next
      exact
        next (kept.step positive command (collisionFree.mono first)) positive
          (collisionFree.mono later)

theorem map_digests (kept : cache.Keeps present) :
    cache.entries.map (fun entry => entry.1) =
      present.map Digest.ofText := by
  unfold Keeps at kept
  generalize cache.entries = entries at kept ⊢
  induction kept with
  | nil => rfl
  | cons isEntry _ ih => rw [List.map_cons, List.map_cons, isEntry.1, ih]

end Keeps

/-- A command is counted when it may parse, as a hit or as a miss. -/
theorem hits_add_misses_step
    (cache : Cache)
    (command : CacheCommand) :
    (cache.step command).hits + (cache.step command).misses =
      cache.hits + cache.misses + (if command.isParse then 1 else 0) := by
  cases command with
  | get text =>
      simp only [step, Cache.get]
      split <;> rfl
  | getOrParse text =>
      simp only [step, Cache.getOrParse_eq, CacheCommand.isParse, if_true]
      split
      · exact Nat.add_right_comm _ _ _
      · split <;> exact (Nat.add_assoc _ _ _).symm
  | clear => rfl

theorem hits_add_misses_run
    (cache : Cache)
    (commands : List CacheCommand) :
    (cache.run commands).hits + (cache.run commands).misses =
      cache.hits + cache.misses + commands.countP CacheCommand.isParse := by
  induction commands generalizing cache with
  | nil => rfl
  | cons command commands ih =>
      have counted := ih (cache.step command)
      rw [hits_add_misses_step] at counted
      rw [List.countP_cons, Nat.add_comm (commands.countP _), ← Nat.add_assoc]
      exact counted

/-! ## Runs of a new cache -/

/-- A run of a new cache keeps the recent texts of its history. -/
theorem keeps_run
    (capacity : Nat)
    {commands : List CacheCommand}
    (collisionFree : CollisionFree (textsOf commands)) :
    ((ofCapacity capacity).run commands).Keeps
      (recent (max capacity 1) (usesOf (max capacity 1) commands)) := by
  have kept : (ofCapacity capacity).Keeps (recent (max capacity 1) []) := by
    rw [recent_nil]
    exact .nil
  apply kept.run (Nat.le_max_right _ _)
  rwa [List.append_nil]

/-- The texts that were used are among those that the commands name. -/
theorem foldl_usesAfter_subset
    (room : Nat)
    (uses : List String)
    (commands : List CacheCommand) :
    commands.foldl (usesAfter room) uses ⊆ textsOf commands ++ uses := by
  induction commands generalizing uses with
  | nil => exact List.Subset.refl _
  | cons command commands ih =>
      intro text member
      have later := ih _ member
      have := @usesAfter_subset room uses command text
      rw [textsOf_cons]
      grind

theorem recent_usesOf_subset
    (room : Nat)
    (commands : List CacheCommand) :
    recent room (usesOf room commands) ⊆ textsOf commands := by
  intro text member
  have used := foldl_usesAfter_subset room [] commands (mem_of_mem_recent member)
  rwa [List.append_nil] at used

/--
At every point of a run of a new cache, its entries are those of the texts
that were used last since it was cleared, in the order of their last use and
each of them once, as far as there is room.  Every call of `getOrParse` was
counted, and the next command is answered from the texts that are present.
-/
theorem run_exact
    (capacity : Nat)
    {commands past : List CacheCommand}
    (collisionFree : CollisionFree (textsOf commands))
    (isPast : past <+: commands) :
    let room := max capacity 1
    let present := recent room (usesOf room past)
    let cache := (ofCapacity capacity).run past
    cache.Keeps present ∧
      (cache.entries.map fun entry => entry.1).Nodup ∧
      cache.size ≤ room ∧
      cache.hits + cache.misses = past.countP CacheCommand.isParse ∧
      ∀ command,
        past ++ [command] <+: commands → cache.Answers present command := by
  intro room present cache
  have pastNamed : textsOf past ⊆ textsOf commands :=
    (isPast.filterMap _).subset
  have presentNamed : present ⊆ textsOf commands :=
    fun _ isPresent => pastNamed (recent_usesOf_subset room past isPresent)
  have kept : cache.Keeps present :=
    keeps_run capacity (collisionFree.mono pastNamed)
  refine ⟨kept, ?_, ?_, ?_, ?_⟩
  · rw [kept.map_digests]
    apply (nodup_recent room (usesOf room past)).map_on
    intro left isLeft right isRight sameDigest
    exact
      collisionFree left (presentNamed isLeft) right (presentNamed isRight)
        sameDigest
  · have sameLength : present.length = cache.size := kept.length_eq
    rw [← sameLength]
    exact List.length_take_le _ _
  · have counted := hits_add_misses_run (ofCapacity capacity) past
    exact counted.trans (Nat.zero_add _)
  · intro command isNext
    apply kept.answers command
    apply collisionFree.mono
    intro text member
    rcases List.mem_append.1 member with named | isPresent
    · apply (isNext.filterMap CacheCommand.text?).subset
      have isText : command.text? = some text := by simpa using named
      simp [isText]
    · exact presentNamed isPresent

/-- With room for one text, `years` takes the place of `sales`. -/
theorem run_exact_sales_years :
    let cache := (ofCapacity 0).run [.getOrParse "sales", .getOrParse "years"]
    cache.Keeps ["years"] ∧ (cache.get "sales").1 = none := by
  have differ : Digest.ofText "sales" ≠ Digest.ofText "years" := by
    decide +kernel
  have collisionFree : CollisionFree ["sales", "years", "sales"] := by
    intro left isLeft right isRight sameDigest
    simp only [List.mem_cons, List.not_mem_nil, or_false] at isLeft isRight
    grind
  have present :
      recent 1 (usesOf 1 [.getOrParse "sales", .getOrParse "years"]) =
        ["years"] := by
    have sales := parse_name .sales
    have years := parse_name .years
    simp only [Variable.name] at sales years
    simp only [usesOf, List.foldl_cons, List.foldl_nil, usesAfter, sales, years]
    decide
  have atEnd :=
    @run_exact 0 [.getOrParse "sales", .getOrParse "years", .get "sales"]
      [.getOrParse "sales", .getOrParse "years"] collisionFree
      ⟨[.get "sales"], rfl⟩
  simp only [Nat.zero_max, present] at atEnd
  obtain ⟨kept, -, -, -, answers⟩ := atEnd
  refine ⟨kept, ?_⟩
  have answer := (answers (.get "sales") ⟨[], rfl⟩).1
  simpa using answer

end Cache

end IncentivePay.Formula
