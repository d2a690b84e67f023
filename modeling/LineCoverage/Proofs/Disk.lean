import LineCoverage.Disk
import Mathlib.Data.List.Basic

/-!
# `LineCoverage.Proofs.Disk`: what writing a file does to a disk

Opening a file to write it follows the names on its path through the directories
that are there, and `Place.ofPath` follows them without looking. Where the file
can be opened, both lead to the same place (`writablePlace_eq_ofPath`), so the
place that changes is known from the path alone.

Whether a file can be opened does not depend on what is to be written:
`exists_openPlace_iff`. What is written stands at the place afterwards, and
nothing else changes: `replaces_store`. A file that is put on the disk comes with
the directories above it: `node?_put`.
-/

set_option autoImplicit false

namespace LineCoverage.Disk

variable {disk later : Disk} {path : String} {bytes : List UInt8}

/-! ### Where a path leads -/

/-- The place to which a name leads, where it can be followed. -/
theorem step_eq {place next : Place} {name : String} (h : disk.step place name = .ok next) :
    next = if name = "" || name = "." then place
      else if name = ".." then place.parent
      else place.child name := by
  unfold step at h
  split at h
  · cases h
  · split at h
    · rename_i hempty
      cases h
      simp [hempty]
    · rename_i hnamed
      split at h
      · cases h
      · split at h
        · rename_i hhere
          cases h
          simp [hhere]
        · rename_i haway
          rw [if_neg (by simp [hnamed, haway])]
          split at h
          · cases h
            exact (if_pos ‹_›).symm
          · rename_i hparent
            rw [if_neg hparent]
            split at h
            · cases h
            · cases h
              rfl

/-- The place to which some names lead, where they can be followed. -/
theorem walk_eq {start place : Place} {names : List String}
    (h : disk.walk start names = .ok place) :
    place = names.foldl (fun place name =>
      if name = "" || name = "." then place
      else if name = ".." then place.parent
      else place.child name) start := by
  induction names generalizing start with
  | nil =>
      cases h
      rfl
  | cons name rest ih =>
      unfold walk at h
      rw [List.foldlM_cons] at h
      cases hstep : disk.step start name with
      | error cause =>
          rw [hstep] at h
          cases h
      | ok next =>
          rw [hstep] at h
          rw [List.foldl_cons, ← step_eq hstep]
          exact ih h

/-- A name in a directory that can be written: it is the last one on its path. -/
theorem writableChild_eq {folder place : Place} {last : String} {slash : Bool}
    (h : disk.writableChild folder last slash = .ok place) :
    slash = false ∧ place = folder.child last := by
  unfold writableChild at h
  cases slash with
  | true =>
      repeat' split at h
      all_goals cases h
      all_goals contradiction
  | false =>
      refine ⟨rfl, ?_⟩
      repeat' split at h
      all_goals cases h
      all_goals rfl

/-- Where no slash stands behind the last name of a path, no name is dropped to find it. -/
private theorem names_eq {names before : List String} {last : String}
    (hnames : names.reverse.dropWhile (· = "") = last :: before)
    (hslash : names.getLast? ≠ some "") : names = before.reverse ++ [last] ∧ last ≠ "" := by
  rw [← List.head?_reverse] at hslash
  have hreverse : names.reverse = last :: before := by
    cases hcases : names.reverse with
    | nil =>
        rw [hcases] at hnames
        cases hnames
    | cons first others =>
        rw [hcases] at hnames hslash
        rwa [List.dropWhile_cons_of_neg (by simpa using hslash)] at hnames
  refine ⟨?_, ?_⟩
  · rw [← List.reverse_reverse names, hreverse, List.reverse_cons]
  · rintro rfl
    rw [hreverse] at hslash
    exact hslash rfl

/-- A file is written at the place that its path names. -/
theorem writablePlace_eq_ofPath {place : Place} (h : disk.writablePlace path = .ok place) :
    place = Place.ofPath path := by
  simp only [writablePlace] at h
  split at h
  · cases h
  · rename_i last before hnames
    split at h
    · -- The last name names a directory.
      cases hwalk : disk.walk (pathParts path).1 (pathParts path).2 <;> rw [hwalk] at h <;> cases h
    · rename_i hplain
      simp only [Bool.or_eq_true, decide_eq_true_eq, not_or] at hplain
      cases hwalk : disk.walk (pathParts path).1 before.reverse with
      | error cause =>
          rw [hwalk] at h
          cases h
      | ok folder =>
          rw [hwalk] at h
          obtain ⟨hslash, rfl⟩ := writableChild_eq h
          obtain ⟨heq, hlast⟩ := names_eq hnames (of_decide_eq_false hslash)
          show folder.child last = List.foldl _ (pathParts path).1 (pathParts path).2
          rw [heq, List.foldl_append, ← walk_eq hwalk]
          simp [hlast, hplain]

/-! ### Writing -/

/-- Whether a file can be opened at a path, to be created or replaced. -/
def CanWrite (disk : Disk) (path : String) : Prop :=
  checkPath path = .ok () ∧ ∃ place, disk.writablePlace path = .ok place

/-- One disk after another on which a file was created or replaced at `place`, and nothing else. -/
structure Replaces (disk later : Disk) (place : Place) (bytes : List UInt8) : Prop where
  file : later.node? place = some (.file bytes)
  others : ∀ other, other ≠ place → later.node? other = disk.node? other

/-- What is to be written does not matter for whether it can be. -/
theorem exists_openPlace_iff : (∃ place, disk.openPlace path = .ok place) ↔ disk.CanWrite path := by
  unfold openPlace CanWrite
  cases hcheck : checkPath path with
  | error fault => simp
  | ok _ =>
      cases hplace : disk.writablePlace path with
      | error cause => simp
      | ok place => simp

/-- An open file is at the place that its path names. It has a name, so it is none of the starts of
paths. -/
theorem place_of_openPlace {place : Place} (h : disk.openPlace path = .ok place) :
    place = Place.ofPath path ∧ place.names ≠ [] := by
  unfold openPlace at h
  split at h
  · cases h
  · split at h
    · cases h
    · rename_i hplace
      cases h
      exact ⟨writablePlace_eq_ofPath hplace, names_ne_nil_of_writablePlace hplace⟩

/-- Writing to an open file replaces it. -/
theorem replaces_store {place : Place} (h : disk.openPlace path = .ok place) (bytes : List UInt8) :
    disk.Replaces (disk.store place bytes) (Place.ofPath path) bytes := by
  obtain ⟨rfl, hnames⟩ := place_of_openPlace h
  refine ⟨?_, fun other hother => ?_⟩
  · rw [node?_store disk hnames, if_pos rfl]
  · rw [node?_store disk hnames, if_neg hother]

/-- What stood at the place in between does not matter. -/
theorem Replaces.store {place : Place} {first : List UInt8} (h : disk.Replaces later place first)
    (hnames : place.names ≠ []) (bytes : List UInt8) :
    disk.Replaces (later.store place bytes) place bytes := by
  refine ⟨?_, fun other hother => ?_⟩
  · rw [node?_store later hnames, if_pos rfl]
  · rw [node?_store later hnames, if_neg hother]
    exact h.others other hother

/-- Putting a file on a disk makes the directories above it, and changes nothing else. -/
theorem node?_put {place : Place} (hplace : place ≠ Place.ofPath path) :
    (disk.put path bytes).node? place
      = if place ∈ directoriesAbove (Place.ofPath path) then some .directory
        else disk.node? place := by
  have hfold : ∀ (folders : List Place) (nodes : Table Place Node),
      (folders.foldl (fun nodes folder => nodes.set folder .directory) nodes).get? place
        = if place ∈ folders then some .directory else nodes.get? place := by
    intro folders
    induction folders with
    | nil => exact fun _ => rfl
    | cons folder rest ih =>
        intro nodes
        rw [List.foldl_cons, ih]
        by_cases hrest : place ∈ rest
        · rw [if_pos hrest, if_pos (List.mem_cons_of_mem folder hrest)]
        · rw [if_neg hrest]
          by_cases hfolder : place = folder
          · rw [hfolder, if_pos List.mem_cons_self]
            exact Table.get?_alter_self _ _ _
          · rw [if_neg (by simp [hfolder, hrest])]
            exact Table.get?_alter_of_ne _ _ hfolder
  unfold node?
  by_cases hnames : place.names = []
  · rw [if_pos hnames, if_pos hnames, ite_self]
  · rw [if_neg hnames, if_neg hnames]
    show ((List.foldl _ disk.nodes _).set (Place.ofPath path) (.file bytes)).get? place = _
    rw [Table.set, Table.get?_alter_of_ne _ _ hplace]
    exact hfold _ _

end LineCoverage.Disk
