import IncentivePay.Engine.Sources
import IncentivePay.Proofs.Text.ByteOrder

/-!
# The entries of a store

A store is filled one entry after the other.  When the entries have one value
for each user, and one figure for each user and period, then what the store
answers is that value, whichever order the entries were put in; the users it
lists are those that an entry has a configuration for.
-/

namespace IncentivePay

namespace Store

/-- What is put into a store at once. -/
inductive Entry
  | configOf (user : String) (config : Config)
  | salesOf (user : String) (period : Period) (sales : Sales)
  | profileOf (user : String) (profile : Profile)

namespace Entry

/-- The configuration that an entry has for a user. -/
def config?
    (user : String) :
    Entry →
    Option Config
  | .configOf written config => if user = written then some config else none
  | _ => none

/-- The sales that an entry has for a user and a period. -/
def sales?
    (user : String)
    (period : Period) :
    Entry →
    Option Sales
  | .salesOf written during sales =>
      if (user, period) = (written, during) then some sales else none
  | _ => none

/-- The profile that an entry has for a user. -/
def profile?
    (user : String) :
    Entry →
    Option Profile
  | .profileOf written profile => if user = written then some profile else none
  | _ => none

theorem config?_eq_some_iff
    (user : String)
    (entry : Entry)
    (config : Config) :
    entry.config? user = some config ↔ entry = .configOf user config := by
  cases entry <;> simp [config?, eq_comm]

theorem sales?_eq_some_iff
    (user : String)
    (period : Period)
    (entry : Entry)
    (sales : Sales) :
    entry.sales? user period = some sales ↔
      entry = .salesOf user period sales := by
  cases entry <;> simp [sales?, eq_comm, and_assoc]

theorem profile?_eq_some_iff
    (user : String)
    (entry : Entry)
    (profile : Profile) :
    entry.profile? user = some profile ↔ entry = .profileOf user profile := by
  cases entry <;> simp [profile?, eq_comm]

end Entry

/-- The store with an entry put into it. -/
def put (store : Store) : (entry : Entry) → Store
  | .configOf user config => store.putConfig user config
  | .salesOf user period sales => store.putSales user period sales
  | .profileOf user profile => store.putProfile user profile

/-- The store of some entries, put into it in their order. -/
def ofEntries (entries : List Entry) : Store :=
  entries.foldl put empty

theorem get?_configs_put
    (user : String)
    (store : Store)
    (entry : Entry) :
    (store.put entry).configs.get? user =
      (entry.config? user).or (store.configs.get? user) := by
  cases entry with
  | configOf written config =>
      exact Register.get?_insert store.configs written user config
  | _ => rfl

theorem get?_sales_put
    (user : String)
    (period : Period)
    (store : Store)
    (entry : Entry) :
    (store.put entry).sales.get? (user, period) =
      (entry.sales? user period).or (store.sales.get? (user, period)) := by
  cases entry with
  | salesOf written during sales =>
      exact
        Register.get?_insert store.sales (written, during) (user, period) sales
  | _ => rfl

theorem get?_profiles_put
    (user : String)
    (store : Store)
    (entry : Entry) :
    (store.put entry).profiles.get? user =
      (entry.profile? user).or (store.profiles.get? user) := by
  cases entry with
  | profileOf written profile =>
      exact Register.get?_insert store.profiles written user profile
  | _ => rfl

/-! ## Whatever the order -/

variable
  {Value : Type}
  {lookUp : Store → Option Value}
  {written : Entry → Option Value}
  {entries : List Entry}

/-- What every entry replaces or keeps is, in the end, what was put last. -/
theorem lookUp_foldl
    (lookUp_put :
      ∀ store entry,
        lookUp (store.put entry) = (written entry).or (lookUp store))
    (store : Store)
    (entries : List Entry) :
    lookUp (entries.foldl put store) =
      ((entries.filterMap written).getLast?).or (lookUp store) := by
  induction entries generalizing store with
  | nil => rfl
  | cons entry entries ih =>
      rw [List.foldl_cons, ih, lookUp_put, Register.getLast?_filterMap_cons,
        Option.or_assoc]

theorem getLast?_eq_of_mem_iff
    {values : List Value}
    {known : Option Value}
    (isOnly : ∀ value, value ∈ values ↔ known = some value) :
    values.getLast? = known := by
  cases last : values.getLast? with
  | none =>
      rw [List.getLast?_eq_none_iff] at last
      subst last
      cases known with
      | none => rfl
      | some value => exact absurd ((isOnly value).2 rfl) List.not_mem_nil
  | some value => exact ((isOnly value).1 (List.mem_of_getLast? last)).symm

/-- Where the entries have one value only, the store answers that value. -/
theorem lookUp_ofEntries
    {entryOf : Value → Entry}
    {known : Option Value}
    (lookUp_put :
      ∀ store entry,
        lookUp (store.put entry) = (written entry).or (lookUp store))
    (lookUp_empty : lookUp empty = none)
    (written_iff :
      ∀ entry value, written entry = some value ↔ entry = entryOf value)
    (isOnly : ∀ value, entryOf value ∈ entries ↔ known = some value) :
    lookUp (ofEntries entries) = known := by
  unfold ofEntries
  rw [lookUp_foldl lookUp_put, lookUp_empty, Option.or_none]
  apply getLast?_eq_of_mem_iff
  intro value
  simp only [List.mem_filterMap, written_iff, exists_eq_right, isOnly]

theorem nodup_keys_foldl
    {store : Store}
    (nodup : store.configs.keys.Nodup)
    (entries : List Entry) :
    (entries.foldl put store).configs.keys.Nodup := by
  induction entries generalizing store with
  | nil => exact nodup
  | cons entry entries ih =>
      apply ih
      cases entry with
      | configOf user config => exact Register.nodup_keys_insert nodup user config
      | _ => exact nodup

theorem nodup_keys_ofEntries (entries : List Entry) :
    (ofEntries entries).configs.keys.Nodup :=
  @nodup_keys_foldl empty List.nodup_nil entries

/-! ## The users of a store -/

theorem mem_users_iff
    (store : Store)
    (user : String) :
    user ∈ store.users ↔ store.configs.get? user ≠ none := by
  unfold users
  rw [List.mem_mergeSort, Register.mem_keys_iff]

theorem nodup_users
    {store : Store}
    (nodup : store.configs.keys.Nodup) :
    store.users.Nodup :=
  (List.mergeSort_perm _ _).nodup_iff.2 nodup

theorem users_pairwise_le (store : Store) :
    store.users.Pairwise (· ≤ ·) := by
  have sorted :=
    @List.pairwise_mergeSort String (· ≤ ·)
      (fun _ _ _ first second =>
        decide_eq_true
          (String.le_trans (of_decide_eq_true first)
            (of_decide_eq_true second)))
      (fun first second => by simpa using String.le_total first second)
      store.configs.keys
  exact sorted.imp of_decide_eq_true

/-- Each user is listed once, in the order of their bytes. -/
theorem users_pairwise_lt
    {store : Store}
    (nodup : store.configs.keys.Nodup) :
    store.users.Pairwise fun first second =>
      utf8Bytes first < utf8Bytes second := by
  have sorted := users_pairwise_le store
  have distinct : store.users.Pairwise (· ≠ ·) := nodup_users nodup
  refine (sorted.and distinct).imp ?_
  rintro first second ⟨atMost, different⟩
  apply utf8Bytes_lt_utf8Bytes
  rw [← String.not_le]
  intro atLeast
  exact different (String.le_antisymm atMost atLeast)

/-- Stores with configurations for the same users list the same users. -/
theorem users_eq_of_mem_iff
    {store other : Store}
    (nodup : store.configs.keys.Nodup)
    (otherNodup : other.configs.keys.Nodup)
    (sameUsers : ∀ user, user ∈ store.users ↔ user ∈ other.users) :
    store.users = other.users := by
  apply List.Perm.eq_of_pairwise _ store.users_pairwise_le other.users_pairwise_le
  · exact
      (List.perm_ext_iff_of_nodup (nodup_users nodup)
        (nodup_users otherNodup)).2 sameUsers
  · intro first second _ _ atMost atLeast
    exact String.le_antisymm atMost atLeast

end Store

end IncentivePay
