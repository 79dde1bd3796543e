/-!
# Registers

A register keeps one value under each key.  Writing under a key replaces the
value that was there, and what other keys hold is untouched; the order of the
entries carries no meaning.
-/

namespace IncentivePay

/-- Values under keys, one value under each. -/
structure Register (Key Value : Type) where
  entries : List (Key × Value)

namespace Register

variable {Key Value : Type} [DecidableEq Key]

/-- The register without an entry. -/
def empty : Register Key Value :=
  ⟨[]⟩

/-- The value under a key. -/
def get?
    (register : Register Key Value)
    (key : Key) :
    Option Value :=
  (register.entries.find? fun entry => entry.1 = key).map fun entry => entry.2

/-- The register without the value under a key. -/
def erase
    (register : Register Key Value)
    (key : Key) :
    Register Key Value :=
  ⟨register.entries.filter fun entry => entry.1 ≠ key⟩

/-- The register with a value put under a key. -/
def insert
    (register : Register Key Value)
    (key : Key)
    (value : Value) :
    Register Key Value :=
  ⟨(key, value) :: (register.erase key).entries⟩

/--
The register of a list of entries, of which a later one replaces an earlier.
-/
def ofList (entries : List (Key × Value)) : Register Key Value :=
  entries.foldl (fun register entry => register.insert entry.1 entry.2) empty

/-- The keys that have a value. -/
def keys (register : Register Key Value) : List Key :=
  register.entries.map fun entry => entry.1

@[simp]
theorem get?_empty (key : Key) :
    (empty : Register Key Value).get? key = none :=
  rfl

@[simp]
theorem get?_insert_same
    (register : Register Key Value)
    (key : Key)
    (value : Value) :
    (register.insert key value).get? key = some value := by
  simp [get?, insert]

theorem get?_erase_of_ne
    (register : Register Key Value)
    {erased key : Key}
    (different : key ≠ erased) :
    (register.erase erased).get? key = register.get? key := by
  unfold get? erase
  congr 1
  rw [List.find?_filter]
  congr 1
  funext entry
  by_cases found : entry.1 = key
  · simp [found, different]
  · simp [found]

theorem get?_insert_of_ne
    (register : Register Key Value)
    {written key : Key}
    (value : Value)
    (different : key ≠ written) :
    (register.insert written value).get? key = register.get? key := by
  rw [← get?_erase_of_ne register different]
  simp [get?, insert, Ne.symm different]

theorem get?_insert
    (register : Register Key Value)
    (written key : Key)
    (value : Value) :
    (register.insert written value).get? key =
      (if key = written then some value else none).or (register.get? key) := by
  split
  · rename_i same
    rw [same, get?_insert_same, Option.some_or]
  · rename_i different
    rw [get?_insert_of_ne register value different, Option.none_or]

theorem mem_keys_iff
    (register : Register Key Value)
    (key : Key) :
    key ∈ register.keys ↔ register.get? key ≠ none := by
  simp [keys, get?]

theorem nodup_keys_insert
    {register : Register Key Value}
    (nodup : register.keys.Nodup)
    (key : Key)
    (value : Value) :
    (register.insert key value).keys.Nodup := by
  unfold keys insert erase
  rw [List.map_cons, List.nodup_cons]
  constructor
  · simp
  · exact nodup.sublist (List.filter_sublist.map _)

/-! ## The register of a list -/

/-- What is written last is written by the first, unless by a later one. -/
theorem getLast?_filterMap_cons
    {Item : Type}
    (written : Item → Option Value)
    (item : Item)
    (items : List Item) :
    ((item :: items).filterMap written).getLast? =
      ((items.filterMap written).getLast?).or (written item) := by
  cases writes : written item with
  | none => simp [writes]
  | some value =>
      rw [List.filterMap_cons_some writes, List.getLast?_cons]
      cases (items.filterMap written).getLast? <;> rfl

/-- The last value that a list has under a key. -/
def lastUnder
    (key : Key)
    (entries : List (Key × Value)) :
    Option Value :=
  (entries.filterMap fun entry =>
    if key = entry.1 then some entry.2 else none).getLast?

theorem lastUnder_cons
    (key : Key)
    (entry : Key × Value)
    (entries : List (Key × Value)) :
    lastUnder key (entry :: entries) =
      (lastUnder key entries).or
        (if key = entry.1 then some entry.2 else none) :=
  getLast?_filterMap_cons _ entry entries

theorem lastUnder_append
    (key : Key)
    (entries others : List (Key × Value)) :
    lastUnder key (entries ++ others) =
      (lastUnder key others).or (lastUnder key entries) := by
  unfold lastUnder
  rw [List.filterMap_append, List.getLast?_append]

/-- A list has a value under the keys of its entries, and under no other. -/
theorem lastUnder_eq_none_iff
    (key : Key)
    (entries : List (Key × Value)) :
    lastUnder key entries = none ↔ ∀ entry ∈ entries, key ≠ entry.1 := by
  simp [lastUnder]

theorem mem_of_lastUnder
    {key : Key}
    {value : Value}
    {entries : List (Key × Value)}
    (isLast : lastUnder key entries = some value) :
    (key, value) ∈ entries := by
  obtain ⟨⟨written, kept⟩, member, isKept⟩ :=
    List.mem_filterMap.1 (List.mem_of_getLast? isLast)
  rw [Option.ite_none_right_eq_some] at isKept
  obtain ⟨rfl, ⟨⟩⟩ := isKept
  exact member

theorem nodup_keys_foldl
    {register : Register Key Value}
    (nodup : register.keys.Nodup)
    (entries : List (Key × Value)) :
    (entries.foldl
      (fun register entry => register.insert entry.1 entry.2)
      register).keys.Nodup := by
  induction entries generalizing register with
  | nil => exact nodup
  | cons entry entries ih => exact ih (nodup_keys_insert nodup _ _)

theorem nodup_keys_ofList (entries : List (Key × Value)) :
    (ofList entries).keys.Nodup :=
  @nodup_keys_foldl _ _ _ empty List.nodup_nil entries

theorem get?_foldl
    (register : Register Key Value)
    (entries : List (Key × Value))
    (key : Key) :
    (entries.foldl
      (fun register entry => register.insert entry.1 entry.2)
      register).get? key =
      (lastUnder key entries).or (register.get? key) := by
  induction entries generalizing register with
  | nil => rfl
  | cons entry entries ih =>
      rw [List.foldl_cons, ih, get?_insert, lastUnder_cons, Option.or_assoc]

theorem get?_ofList
    (entries : List (Key × Value))
    (key : Key) :
    (ofList entries).get? key = lastUnder key entries := by
  unfold ofList
  rw [get?_foldl, get?_empty, Option.or_none]

end Register

end IncentivePay
