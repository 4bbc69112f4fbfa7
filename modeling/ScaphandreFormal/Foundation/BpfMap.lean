import Mathlib.Algebra.Order.BigOperators.Group.List
import Mathlib.Algebra.Order.Group.Nat
import Mathlib.Data.List.Nodup
import Mathlib.Data.UInt

/-!
# Kernel map types

The three map types a tracing program shares with its other instances and with
user space.  A per-CPU hash map has one key set for all CPUs and one slot per
key and CPU: inserting a new key writes the slot of the calling CPU and zeroes
the others, inserting an existing key writes the calling CPU's slot only, and
removing a key removes it for every CPU.  An array map always holds all its
indices.  A ring buffer accepts records until it is full.
-/

namespace ScaphandreFormal.Foundation

/-- A per-CPU hash map with at most `maxEntries` keys. -/
structure PerCpuHashMap (Key Value : Type) (maxEntries : Nat) where
  keys : List Key
  slots : Key → Nat → Value
  nodup : keys.Nodup
  fits : keys.length ≤ maxEntries

namespace PerCpuHashMap

variable {Key Value : Type} {maxEntries : Nat}

/-- The map as it is created. -/
def empty [Zero Value] : PerCpuHashMap Key Value maxEntries where
  keys := []
  slots := fun _ _ => 0
  nodup := List.nodup_nil
  fits := Nat.zero_le _

variable [DecidableEq Key]

/-- The value behind the pointer a lookup on `cpu` returns. -/
def get? (map : PerCpuHashMap Key Value maxEntries) (key : Key) (cpu : Nat) : Option Value :=
  if key ∈ map.keys then some (map.slots key cpu) else none

/-- The slot of `cpu`, an absent key being read as zero. -/
def read [Zero Value] (map : PerCpuHashMap Key Value maxEntries) (key : Key) (cpu : Nat) : Value :=
  (map.get? key cpu).getD 0

/-- Write through the pointer a lookup on `cpu` returned; there is none for an absent
key, whose slots no lookup can see. -/
def write (map : PerCpuHashMap Key Value maxEntries) (key : Key) (cpu : Nat) (value : Value) :
    PerCpuHashMap Key Value maxEntries :=
  { map with slots := fun k c => if k = key ∧ c = cpu then value else map.slots k c }

/-- Insert from `cpu`.  A new key needs a free entry; otherwise the map is unchanged and
the error is the caller's to ignore. -/
def insert [Zero Value] (map : PerCpuHashMap Key Value maxEntries) (key : Key) (cpu : Nat)
    (value : Value) :
    PerCpuHashMap Key Value maxEntries :=
  if key ∈ map.keys then
    map.write key cpu value
  else if room : key ∉ map.keys ∧ map.keys.length < maxEntries then
    { keys := key :: map.keys
      slots := fun k c => if k = key then (if c = cpu then value else 0) else map.slots k c
      nodup := List.nodup_cons.mpr ⟨room.1, map.nodup⟩
      fits := room.2 }
  else
    map

/-- Delete the key for all CPUs. -/
def remove (map : PerCpuHashMap Key Value maxEntries) (key : Key) :
    PerCpuHashMap Key Value maxEntries :=
  { map with
    keys := map.keys.erase key
    nodup := map.nodup.erase key
    fits := Nat.le_trans List.length_erase_le map.fits }

@[simp]
theorem keys_remove (map : PerCpuHashMap Key Value maxEntries) (key : Key) :
    (map.remove key).keys = map.keys.erase key := rfl

theorem mem_keys_remove (map : PerCpuHashMap Key Value maxEntries) (key other : Key) :
    other ∈ (map.remove key).keys ↔ other ≠ key ∧ other ∈ map.keys := by
  rw [keys_remove, map.nodup.mem_erase_iff]

theorem get?_eq_some_iff (map : PerCpuHashMap Key Value maxEntries) (key : Key) (cpu : Nat)
    (value : Value) :
    map.get? key cpu = some value ↔ key ∈ map.keys ∧ map.slots key cpu = value := by
  unfold get?
  by_cases present : key ∈ map.keys <;> simp [present]

theorem get?_eq_none_iff (map : PerCpuHashMap Key Value maxEntries) (key : Key) (cpu : Nat) :
    map.get? key cpu = none ↔ key ∉ map.keys := by
  unfold get?
  by_cases present : key ∈ map.keys <;> simp [present]

theorem get?_write (map : PerCpuHashMap Key Value maxEntries) (key other : Key)
    (cpu core : Nat) (value : Value) :
    (map.write key cpu value).get? other core =
      if other = key ∧ core = cpu ∧ key ∈ map.keys then some value
      else map.get? other core := by
  unfold get? write
  by_cases same : other = key
  · subst same
    by_cases present : other ∈ map.keys <;> by_cases here : core = cpu <;> simp [present, here]
  · simp [same]

theorem get?_remove (map : PerCpuHashMap Key Value maxEntries) (key other : Key)
    (core : Nat) :
    (map.remove key).get? other core = if other = key then none else map.get? other core := by
  by_cases same : other = key
  · rw [if_pos same, get?_eq_none_iff, mem_keys_remove]
    exact fun gone => gone.1 same
  · rw [if_neg same]
    unfold get?
    by_cases present : other ∈ map.keys
    · rw [if_pos present, if_pos ((map.mem_keys_remove key other).mpr ⟨same, present⟩)]
      rfl
    · rw [if_neg present,
        if_neg (fun kept => present ((map.mem_keys_remove key other).mp kept).2)]

/-- What every CPU sees after an insertion into a map with a free entry. -/
theorem get?_insert [Zero Value] {map : PerCpuHashMap Key Value maxEntries}
    (room : map.keys.length < maxEntries) (key other : Key) (cpu core : Nat) (value : Value) :
    (map.insert key cpu value).get? other core =
      if other = key then
        (if core = cpu then some value
          else if key ∈ map.keys then map.get? key core else some 0)
      else map.get? other core := by
  unfold insert
  by_cases present : key ∈ map.keys
  · rw [if_pos present, get?_write]
    by_cases same : other = key
    · subst same
      by_cases here : core = cpu <;> simp [present, here]
    · simp [same]
  · rw [if_neg present, dif_pos ⟨present, room⟩]
    by_cases same : other = key
    · subst same
      by_cases here : core = cpu <;> simp [get?, present, here]
    · simp [get?, same]

/-! ### Growth over the key set -/

/-- How far the slots of `cpu` have grown past a baseline, summed over all present keys. -/
def growth (map : PerCpuHashMap Key Value maxEntries) (weigh : Value → Nat) (base : Key → Nat)
    (cpu : Nat) : Nat :=
  (map.keys.map fun key => weigh (map.slots key cpu) - base key).sum

/-- Changing one summand of a duplicate-free sum changes the sum by no more. -/
theorem sum_map_le_add_of_nodup {keys : List Key} (nodup : keys.Nodup) (key : Key)
    (before after : Key → Nat) (gain : Nat) (here : after key ≤ before key + gain)
    (elsewhere : ∀ other, other ≠ key → after other = before other) :
    (keys.map after).sum ≤ (keys.map before).sum + gain := by
  induction keys with
  | nil => simp
  | cons first rest ih =>
      obtain ⟨fresh, restNodup⟩ := List.nodup_cons.mp nodup
      by_cases same : first = key
      · subst same
        have unchanged : rest.map after = rest.map before := by
          apply List.map_congr_left
          intro other member
          exact elsewhere other (fun equal => fresh (equal ▸ member))
        simp only [List.map_cons, List.sum_cons, unchanged]
        omega
      · have rest := ih restNodup
        simp only [List.map_cons, List.sum_cons, elsewhere first same]
        omega

theorem growth_remove_le (map : PerCpuHashMap Key Value maxEntries) (key : Key)
    (weigh : Value → Nat) (base : Key → Nat) (cpu : Nat) :
    (map.remove key).growth weigh base cpu ≤ map.growth weigh base cpu := by
  have fewer := (List.erase_sublist (a := key) (l := map.keys)).map
    (fun other => weigh (map.slots other cpu) - base other)
  exact fewer.sum_le_sum (fun _ _ => Nat.zero_le _)

theorem growth_write_le (map : PerCpuHashMap Key Value maxEntries) (key : Key) (cpu : Nat)
    (value : Value) (weigh : Value → Nat) (base : Key → Nat) (core gain : Nat)
    (bounded : weigh value ≤ weigh (map.slots key cpu) + gain) :
    (map.write key cpu value).growth weigh base core ≤
      map.growth weigh base core + if core = cpu then gain else 0 := by
  apply sum_map_le_add_of_nodup map.nodup key
  · by_cases here : core = cpu
    · subst here
      simp only [write, and_self, if_true]
      omega
    · simp [write, here]
  · intro other differs
    simp [write, differs]

theorem growth_insert_le [Zero Value] (map : PerCpuHashMap Key Value maxEntries) (key : Key)
    (cpu : Nat) (value : Value) (weigh : Value → Nat) (weigh_zero : weigh 0 = 0)
    (base : Key → Nat) (core : Nat) (absent : key ∉ map.keys) :
    (map.insert key cpu value).growth weigh base core ≤
      map.growth weigh base core + if core = cpu then weigh value else 0 := by
  unfold insert
  rw [if_neg absent]
  by_cases room : key ∉ map.keys ∧ map.keys.length < maxEntries
  · have unchanged : map.keys.map (fun other => weigh (if other = key then
          (if core = cpu then value else 0) else map.slots other core) - base other) =
        map.keys.map (fun other => weigh (map.slots other core) - base other) := by
      apply List.map_congr_left
      intro other member
      rw [if_neg (fun equal : other = key => absent (equal ▸ member))]
    rw [dif_pos room]
    simp only [growth, List.map_cons, List.sum_cons, if_true, unchanged]
    by_cases here : core = cpu
    · simp only [here, if_true]
      omega
    · simp only [here, if_false, weigh_zero]
      omega
  · rw [dif_neg room]
    exact Nat.le_add_right _ _

end PerCpuHashMap

/-- An array map of `maxEntries` values. -/
structure BpfArray (Value : Type) (maxEntries : Nat) where
  values : Nat → Value

namespace BpfArray

variable {Value : Type} {maxEntries : Nat}

/-- The array as it is created. -/
def empty [Zero Value] : BpfArray Value maxEntries := ⟨fun _ => 0⟩

/-- Every index below `maxEntries` is present. -/
def get? (array : BpfArray Value maxEntries) (index : Nat) : Option Value :=
  if index < maxEntries then some (array.values index) else none

/-- Writing outside the array is an error and changes nothing. -/
def set (array : BpfArray Value maxEntries) (index : Nat) (value : Value) :
    BpfArray Value maxEntries :=
  if index < maxEntries then
    ⟨fun i => if i = index then value else array.values i⟩
  else array

theorem get?_eq (array : BpfArray Value maxEntries) {index : Nat} (inside : index < maxEntries) :
    array.get? index = some (array.values index) := if_pos inside

theorem values_set {array : BpfArray Value maxEntries} {index : Nat}
    (inside : index < maxEntries) (value : Value) (i : Nat) :
    (array.set index value).values i = if i = index then value else array.values i := by
  rw [set, if_pos inside]

end BpfArray

/-- A ring buffer with room for `capacity` records. -/
structure RingBuf (Record : Type) (capacity : Nat) where
  pending : List Record

namespace RingBuf

variable {Record : Type} {capacity : Nat}

/-- The buffer as it is created. -/
def empty : RingBuf Record capacity := ⟨[]⟩

/-- Reserve, fill and submit one record; a full buffer drops it. -/
def submit (buffer : RingBuf Record capacity) (record : Record) : RingBuf Record capacity :=
  if buffer.pending.length < capacity then ⟨buffer.pending ++ [record]⟩ else buffer

end RingBuf

end ScaphandreFormal.Foundation
