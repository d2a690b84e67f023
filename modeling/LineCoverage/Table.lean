/-!
# `LineCoverage.Table`: tables in order of first insertion

Files, lines and instructions are all listed in the order in which each was
first seen, and a later record of the same instruction replaces the earlier one
without moving it. A `Table` is a list of entries with distinct keys that keeps
this order: a new key goes to the end, a known key keeps its place.

Everything is said through two views. `keys_alter` gives the keys after a change
in order, and `get?_alter_self` / `get?_alter_of_ne` give the value under each
key. `ext_get?` says that the two views determine a table.
-/

set_option autoImplicit false

namespace LineCoverage

/-- Entries with distinct keys, in the order in which the keys were first inserted. -/
structure Table (κ α : Type) where
  entries : List (κ × α)
  distinct : (entries.map Prod.fst).Nodup

namespace Table

variable {κ α : Type}

/-- The table without entries. -/
def empty : Table κ α := ⟨[], List.nodup_nil⟩

instance : EmptyCollection (Table κ α) := ⟨empty⟩

instance : Inhabited (Table κ α) := ⟨empty⟩

/-- The keys in order of first insertion. -/
def keys (table : Table κ α) : List κ := table.entries.map Prod.fst

/-- The values in order of the first insertion of their keys. -/
def values (table : Table κ α) : List α := table.entries.map Prod.snd

/-- The number of entries. -/
def size (table : Table κ α) : Nat := table.entries.length

variable [DecidableEq κ]

/-- The value of the first entry under a key. -/
def lookup (key : κ) : List (κ × α) → Option α
  | [] => none
  | (k, a) :: rest => if k = key then some a else lookup key rest

/-- The entries after the value under `key` became `f` of what it was. -/
def alterEntries (key : κ) (f : Option α → α) : List (κ × α) → List (κ × α)
  | [] => [(key, f none)]
  | (k, a) :: rest => if k = key then (k, f (some a)) :: rest else (k, a) :: alterEntries key f rest

/-- A change under one key leaves the keys in place, a new key at the end. -/
private theorem map_fst_alterEntries (key : κ) (f : Option α → α) (entries : List (κ × α)) :
    (alterEntries key f entries).map Prod.fst
      = if key ∈ entries.map Prod.fst then entries.map Prod.fst
        else entries.map Prod.fst ++ [key] := by
  induction entries with
  | nil => simp [alterEntries]
  | cons entry rest ih =>
      obtain ⟨k, a⟩ := entry
      by_cases h : k = key
      · simp [alterEntries, h]
      · simp only [alterEntries, h, if_false, List.map_cons, ih, List.mem_cons, Ne.symm h,
          false_or]
        split <;> simp

/-- The value under a key, if it has one. -/
def get? (table : Table κ α) (key : κ) : Option α := lookup key table.entries

/-- Whether a key has a value. -/
def contains (table : Table κ α) (key : κ) : Bool := (table.get? key).isSome

/-- Sets the value under `key` to `f` of what it was; `f none` starts a new entry at the end. -/
def alter (table : Table κ α) (key : κ) (f : Option α → α) : Table κ α where
  entries := alterEntries key f table.entries
  distinct := by
    rw [map_fst_alterEntries]
    split
    · exact table.distinct
    · rename_i h
      exact List.nodup_append.mpr ⟨table.distinct, by simp, fun x hx y hy => by
        rw [List.mem_singleton.mp hy]
        exact fun heq => h (heq ▸ hx)⟩

/-- Sets the value under a key. -/
def set (table : Table κ α) (key : κ) (a : α) : Table κ α := table.alter key fun _ => a

/-- Sets the value under a key that has none; a value that is there stays. -/
def setNew (table : Table κ α) (key : κ) (a : α) : Table κ α := table.alter key (·.getD a)

/-- The table without the entry under a key; the others keep their order. -/
def erase (table : Table κ α) (key : κ) : Table κ α where
  entries := table.entries.filter (·.1 ≠ key)
  distinct := table.distinct.sublist (List.filter_sublist.map Prod.fst)

/-! ### The two views of a change -/

/-- The keys after a change: a known key keeps its place, a new one goes to the end. -/
theorem keys_alter (table : Table κ α) (key : κ) (f : Option α → α) :
    (table.alter key f).keys
      = if key ∈ table.keys then table.keys else table.keys ++ [key] :=
  map_fst_alterEntries key f table.entries

/-- The value under the changed key. -/
theorem get?_alter_self (table : Table κ α) (key : κ) (f : Option α → α) :
    (table.alter key f).get? key = some (f (table.get? key)) := by
  show lookup key (alterEntries key f table.entries) = some (f (lookup key table.entries))
  induction table.entries with
  | nil => simp [alterEntries, lookup]
  | cons entry rest ih =>
      obtain ⟨k, a⟩ := entry
      by_cases h : k = key
      · simp [alterEntries, lookup, h]
      · simp [alterEntries, lookup, h, ih]

/-- The value under any other key stays. -/
theorem get?_alter_of_ne (table : Table κ α) {key other : κ} (f : Option α → α)
    (h : other ≠ key) : (table.alter key f).get? other = table.get? other := by
  show lookup other (alterEntries key f table.entries) = lookup other table.entries
  induction table.entries with
  | nil => simp [alterEntries, lookup, Ne.symm h]
  | cons entry rest ih =>
      obtain ⟨k, a⟩ := entry
      by_cases hk : k = key
      · have hother : ¬ key = other := Ne.symm h
        simp [alterEntries, lookup, hk, hother]
      · simp [alterEntries, lookup, hk, ih]

/-- Exactly the keys have a value. -/
theorem get?_isSome_iff (table : Table κ α) (key : κ) :
    (table.get? key).isSome = true ↔ key ∈ table.keys := by
  show (lookup key table.entries).isSome = true ↔ key ∈ table.entries.map Prod.fst
  induction table.entries with
  | nil => simp [lookup]
  | cons entry rest ih =>
      obtain ⟨k, a⟩ := entry
      by_cases h : k = key
      · simp [lookup, h]
      · simp [lookup, h, ih, Ne.symm h]

/-- Two tables with the same keys in order and the same value under each are equal. -/
theorem ext_get? {left right : Table κ α} (hkeys : left.keys = right.keys)
    (hget : ∀ key, left.get? key = right.get? key) : left = right := by
  obtain ⟨entries, distinct⟩ := left
  obtain ⟨entries', distinct'⟩ := right
  suffices h : entries = entries' by subst h; rfl
  simp only [keys] at hkeys
  simp only [get?] at hget
  induction entries generalizing entries' with
  | nil => exact (List.map_eq_nil_iff.mp hkeys.symm).symm
  | cons entry rest ih =>
      obtain ⟨k, a⟩ := entry
      cases entries' with
      | nil => simp at hkeys
      | cons entry' rest' =>
          obtain ⟨k', a'⟩ := entry'
          simp only [List.map_cons, List.cons.injEq] at hkeys
          obtain ⟨rfl, hrest⟩ := hkeys
          have hhead : a = a' := by simpa [lookup] using hget k
          subst hhead
          have hnot : k ∉ rest.map Prod.fst := (List.nodup_cons.mp distinct).1
          rw [ih (List.nodup_cons.mp distinct).2 rest' (List.nodup_cons.mp distinct').2 hrest]
          intro key
          by_cases hk : k = key
          · -- The first key is in neither tail, so both lookups there fail.
            subst hk
            have hleft : lookup k rest = none := by
              rw [← Option.not_isSome_iff_eq_none]
              exact fun h => hnot ((get?_isSome_iff ⟨rest, (List.nodup_cons.mp distinct).2⟩ k).mp h)
            have hright : lookup k rest' = none := by
              rw [← Option.not_isSome_iff_eq_none]
              exact fun h => hnot (hrest ▸
                (get?_isSome_iff ⟨rest', (List.nodup_cons.mp distinct').2⟩ k).mp h)
            rw [hleft, hright]
          · simpa [lookup, hk] using hget key

end Table

end LineCoverage
