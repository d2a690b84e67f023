import LineCoverage.Table
import Mathlib.Data.List.Basic
import Mathlib.Data.List.Induction

/-!
# `LineCoverage.Proofs.Table`: tables filled one value after another

`Table.gather` starts from a table without entries and lets one value after
another change the entry under its key. Its two views are those of a table:

* `keys_gather`: the keys are those of the values, each where it comes first.
* `get?_gather`: what is under a key is the work of the values with that key,
  and of no others.

`values_eq` puts the two views together again: the values of a table are those
under its keys, in the order of the keys. Where only this order differs, the
values are the same in another order (`perm_values`).
-/

set_option autoImplicit false

namespace LineCoverage.Table

variable {κ α β : Type} [DecidableEq κ]

/-! ### Two changes of one entry -/

/-- Only what a change does to the value that is there matters. -/
theorem alter_congr (table : Table κ α) {key : κ} {f g : Option α → α}
    (h : f (table.get? key) = g (table.get? key)) : table.alter key f = table.alter key g := by
  refine ext_get? (by rw [keys_alter, keys_alter]) fun other => ?_
  by_cases hother : other = key
  · rw [hother, get?_alter_self, get?_alter_self, h]
  · rw [get?_alter_of_ne table f hother, get?_alter_of_ne table g hother]

/-- Two changes under one key are one. -/
theorem alter_alter (table : Table κ α) (key : κ) (f g : Option α → α) :
    (table.alter key f).alter key g = table.alter key fun value => g (some (f value)) := by
  refine ext_get? ?_ fun other => ?_
  · rw [keys_alter, keys_alter, keys_alter]
    split <;> simp_all
  · by_cases hother : other = key
    · rw [hother, get?_alter_self, get?_alter_self, get?_alter_self]
    · rw [get?_alter_of_ne _ g hother, get?_alter_of_ne table f hother,
        get?_alter_of_ne table _ hother]

/-! ### The values of a table -/

/-- The values are those under the keys, in the order of the keys. -/
theorem values_eq (table : Table κ α) : table.values = table.keys.filterMap table.get? := by
  obtain ⟨entries, distinct⟩ := table
  show entries.map Prod.snd = (entries.map Prod.fst).filterMap fun key => lookup key entries
  induction entries with
  | nil => rfl
  | cons entry rest ih =>
      obtain ⟨key, value⟩ := entry
      obtain ⟨hnew, hrest⟩ := List.nodup_cons.mp distinct
      -- The first key is not among the others, so that they are looked up behind it.
      have hbehind : (rest.map Prod.fst).filterMap
            (fun other => lookup other ((key, value) :: rest))
          = (rest.map Prod.fst).filterMap fun other => lookup other rest := by
        refine List.filterMap_congr fun other hmem => ?_
        have hne : ¬ key = other := by
          intro heq
          exact hnew (heq ▸ hmem)
        simp [lookup, hne]
      rw [List.map_cons, List.map_cons, List.filterMap_cons, hbehind, ih hrest]
      simp [lookup]

/-- A key with a value is one of the keys. -/
theorem mem_keys_of_get? {table : Table κ α} {key : κ} {value : α}
    (h : table.get? key = some value) : key ∈ table.keys :=
  (get?_isSome_iff table key).mp (by rw [h]; rfl)

/-- Under each of the keys there is a value. -/
theorem exists_get?_of_mem {table : Table κ α} {key : κ} (h : key ∈ table.keys) :
    ∃ value, table.get? key = some value :=
  Option.isSome_iff_exists.mp ((get?_isSome_iff table key).mpr h)

/-- Under anything else there is none. -/
theorem get?_eq_none_iff {table : Table κ α} {key : κ} :
    table.get? key = none ↔ key ∉ table.keys := by
  rw [← get?_isSome_iff]
  simp

/-- The values are those that are found under some key. -/
theorem mem_values_iff {table : Table κ α} {value : α} :
    value ∈ table.values ↔ ∃ key, table.get? key = some value := by
  rw [values_eq, List.mem_filterMap]
  constructor
  · rintro ⟨key, -, hvalue⟩
    exact ⟨key, hvalue⟩
  · rintro ⟨key, hvalue⟩
    exact ⟨key, mem_keys_of_get? hvalue, hvalue⟩

/-- Where every value tells its key, the keys are told in order. -/
theorem map_values {table : Table κ α} {name : α → κ}
    (h : ∀ key value, table.get? key = some value → name value = key) :
    table.values.map name = table.keys := by
  have hnames : table.keys.filterMap (fun key => (table.get? key).map name)
      = table.keys.filterMap some := by
    refine List.filterMap_congr fun key hmem => ?_
    obtain ⟨value, hvalue⟩ := exists_get?_of_mem hmem
    rw [hvalue, Option.map_some, h key value hvalue]
  rw [values_eq, List.map_filterMap, hnames, List.filterMap_some]

/-- Where each key tells whether its value is wanted, the first value that is wanted is that of
the first such key. -/
theorem find?_values (table : Table κ α) {p : κ → Bool} {q : α → Bool}
    (h : ∀ key value, table.get? key = some value → q value = p key) :
    table.values.find? q = (table.keys.find? p).bind table.get? := by
  have hfilter : table.keys.filter (fun key => (table.get? key).any q) = table.keys.filter p := by
    refine List.filter_congr fun key hmem => ?_
    obtain ⟨value, hvalue⟩ := exists_get?_of_mem hmem
    rw [hvalue]
    exact h key value hvalue
  rw [values_eq, List.find?_filterMap, ← List.head?_filter, hfilter, List.head?_filter]

/-! ### Tables in another order -/

omit [DecidableEq κ] in
/-- Tables with the same keys have them in some order each. -/
theorem perm_keys {left right : Table κ α} (h : ∀ key, key ∈ left.keys ↔ key ∈ right.keys) :
    left.keys.Perm right.keys :=
  (List.perm_ext_iff_of_nodup left.distinct right.distinct).mpr h

/-- Tables with the same value under every key have the same values in some order each. -/
theorem perm_values {left right : Table κ α} (h : ∀ key, left.get? key = right.get? key) :
    left.values.Perm right.values := by
  have hkeys : left.keys.Perm right.keys := by
    refine perm_keys fun key => ?_
    rw [← get?_isSome_iff, ← get?_isSome_iff, h]
  rw [values_eq, values_eq, funext h]
  exact hkeys.filterMap _

/-! ### One value after another -/

/-- The table after each of some values has changed the entry under its key. -/
def gather (key : β → κ) (change : β → Option α → α) (values : List β) : Table κ α :=
  values.foldl (fun table value => table.alter (key value) (change value)) ∅

variable {key : β → κ} {change : β → Option α → α}

/-- The last value changes what the others have left. -/
theorem gather_concat (values : List β) (value : β) :
    gather key change (values ++ [value])
      = (gather key change values).alter (key value) (change value) := by
  simp [gather, List.foldl_append]

/-- A value at the end of a list is a repetition, or else a value more. -/
private theorem eraseDups_concat (keys : List κ) (last : κ) :
    (keys ++ [last]).eraseDups
      = if last ∈ keys then keys.eraseDups else keys.eraseDups ++ [last] := by
  rw [List.eraseDups_append]
  by_cases hmem : last ∈ keys
  · simp [List.removeAll, hmem]
  · simp [List.removeAll, hmem, List.eraseDups_cons]

/-- The keys are those of the values, in order of first occurrence. -/
theorem keys_gather (values : List β) :
    (gather key change values).keys = (values.map key).eraseDups := by
  induction values using List.reverseRecOn with
  | nil => rfl
  | append_singleton values value ih =>
      rw [gather_concat, keys_alter, ih, List.map_append, List.map_singleton, eraseDups_concat]
      simp only [List.mem_eraseDups]

/-- The same values in another order have the same keys in some order. -/
theorem perm_keys_gather {change' : β → Option α → α} {values others : List β}
    (h : values.Perm others) :
    (gather key change values).keys.Perm (gather key change' others).keys := by
  refine perm_keys fun wanted => ?_
  rw [keys_gather, keys_gather, List.mem_eraseDups, List.mem_eraseDups]
  exact (h.map key).mem_iff

/-- What is under a key is the work of the values with that key. -/
theorem get?_gather (values : List β) (wanted : κ) :
    (gather key change values).get? wanted
      = (values.filter fun value => key value = wanted).foldl
          (fun found value => some (change value found)) none := by
  induction values using List.reverseRecOn with
  | nil => rfl
  | append_singleton values value ih =>
      rw [gather_concat, List.filter_append, List.foldl_append, ← ih]
      by_cases hkey : key value = wanted
      · subst hkey
        rw [get?_alter_self]
        simp
      · rw [get?_alter_of_ne _ _ (Ne.symm hkey)]
        simp [hkey]

/-- An entry that can be told from the values behind it at every step is told from all of them
in the end. -/
theorem eq_of_get?_gather {values : List β} {wanted : κ} {entry : α} (whole : List β → α)
    (hfirst : ∀ value, key value = wanted → change value none = whole [value])
    (hnext : ∀ earlier value, key value = wanted →
      change value (some (whole earlier)) = whole (earlier ++ [value]))
    (h : (gather key change values).get? wanted = some entry) :
    entry = whole (values.filter fun value => key value = wanted) := by
  have hown : ∀ own : List β, (∀ value ∈ own, key value = wanted) →
      own.foldl (fun found value => some (change value found)) none
        = if own = [] then none else some (whole own) := by
    intro own
    induction own using List.reverseRecOn with
    | nil => intro _; rfl
    | append_singleton earlier value ih =>
        intro hkey
        have hvalue : key value = wanted := hkey value (by simp)
        rw [List.foldl_append, ih fun other hmem => hkey other (by simp [hmem])]
        by_cases hempty : earlier = []
        · simp [hempty, hfirst value hvalue]
        · simp [hempty, hnext earlier value hvalue]
  rw [get?_gather, hown _ fun value hmem => by simpa using (List.mem_filter.mp hmem).2] at h
  split at h
  · cases h
  · exact (Option.some.inj h).symm

/-- The same values once more bring no new key. -/
theorem keys_gather_append_self (values : List β) :
    (gather key change (values ++ values)).keys = (gather key change values).keys := by
  have hnone : (values.map key).removeAll (values.map key) = [] := by
    simp [List.removeAll]
  rw [keys_gather, keys_gather, List.map_append, List.eraseDups_append, hnone, List.eraseDups_nil,
    List.append_nil]

/-- Where the same values once more change no entry that is told from its values, they change
nothing. -/
theorem gather_append_self {values : List β} (whole : κ → List β → α)
    (hfirst : ∀ value, change value none = whole (key value) [value])
    (hnext : ∀ earlier value,
      change value (some (whole (key value) earlier)) = whole (key value) (earlier ++ [value]))
    (htwice : ∀ wanted own, whole wanted (own ++ own) = whole wanted own) :
    gather key change (values ++ values) = gather key change values := by
  have hwhole : ∀ wanted entry (list : List β),
      (gather key change list).get? wanted = some entry →
      entry = whole wanted (list.filter fun value => key value = wanted) := by
    intro wanted entry list hentry
    refine eq_of_get?_gather (whole wanted) ?_ ?_ hentry
    · rintro value rfl
      exact hfirst value
    · rintro earlier value rfl
      exact hnext earlier value
  refine ext_get? (keys_gather_append_self values) fun wanted => ?_
  have hsame : ((gather key change (values ++ values)).get? wanted).isSome
      = ((gather key change values).get? wanted).isSome := by
    rw [Bool.eq_iff_iff, get?_isSome_iff, get?_isSome_iff, keys_gather_append_self]
  cases honce : (gather key change values).get? wanted with
  | none =>
      rw [honce] at hsame
      exact Option.not_isSome_iff_eq_none.mp (by simp [hsame])
  | some entry =>
      rw [honce] at hsame
      obtain ⟨entry', hentry'⟩ := Option.isSome_iff_exists.mp hsame
      rw [hentry', hwhole wanted entry' _ hentry', hwhole wanted entry _ honce,
        List.filter_append, htwice]

end LineCoverage.Table
