import LineCoverage.Fault
import LineCoverage.Table
import LineCoverage.Text.Lines
import LineCoverage.Text.Utf8

/-!
# `LineCoverage.Disk`: files and paths

A `Disk` is what a run can see of the file system: a tree of directories and
files around the working directory. It is a value, so a file that changes
between two reads is simply another disk at the second.

A path is followed name by name. Every name on the way has to be looked up in a
directory: an empty name and `.` stay there, `..` goes to its parent, and any
other name goes to the child of that name, which need not exist. The parents of
the working directory and the root are directories of which nothing else is
known.

Opening a file to read it follows the whole path, and a file has to stand at its
end. Opening it to write follows the path up to its last name, and there a file
may stand or be created. A path that ends in a slash names a directory, and so
does one that ends in `.` or `..`.

A disk may forbid its user to read a file, to write one, to make new files in a
directory, or to look names up in it. No run changes what is forbidden.

A file that is opened for writing is empty at once, before anything is written
to it. `node?_store` says what writing does: a file with the new bytes stands at
the place, and nothing else changes.
-/

set_option autoImplicit false

namespace LineCoverage

/-- Where a path begins. -/
inductive Origin where
  /-- The root, for a path that begins with a slash. -/
  | root
  /-- The directory so many levels above the working directory. -/
  | above (levels : Nat)
  deriving DecidableEq, Repr

/-- A place in the tree: the names that lead there. -/
structure Place where
  origin : Origin
  names : List String
  deriving DecidableEq, Repr

namespace Place

/-- The working directory. -/
def here : Place := ⟨.above 0, []⟩

/-- The place of a name in a directory. -/
def child (place : Place) (name : String) : Place :=
  { place with names := place.names ++ [name] }

/-- The directory of a place. The root is its own. -/
def parent (place : Place) : Place :=
  match place.names, place.origin with
  | [], .root => place
  | [], .above levels => ⟨.above (levels + 1), []⟩
  | _ :: _, _ => { place with names := place.names.dropLast }

/-- The path that names a place. -/
def spelling (place : Place) : String :=
  let path := "/".intercalate place.names
  match place.origin with
  | .root => "/" ++ path
  | .above levels => String.join (List.replicate levels "../") ++ path

end Place

/-- The names on a path, an empty one between two slashes and after the last. -/
def pathNames (path : String) : List String :=
  (path.toList.splitOn '/').map String.ofList

/-- The start of a path, and the names to follow from there. -/
def pathParts (path : String) : Place × List String :=
  match pathNames path with
  | "" :: name :: names => (⟨.root, []⟩, name :: names)
  | names => (.here, names)

/-- The place that a path names if every name on it but the last is that of a directory. -/
def Place.ofPath (path : String) : Place :=
  let (start, names) := pathParts path
  names.foldl (fun place name =>
    if name = "" || name = "." then place
    else if name = ".." then place.parent
    else place.child name) start

/-- What can stand at a place. -/
inductive Node where
  | file (bytes : List UInt8)
  | directory
  deriving DecidableEq, Repr

/-- What a user may want to do at a place. -/
inductive Access where
  | read
  /-- To change a file, or to make a new one in a directory. -/
  | write
  /-- To look a name up in a directory. -/
  | search
  deriving DecidableEq, Repr

/-- The files and directories that a run can see. -/
structure Disk where
  nodes : Table Place Node
  /-- What the user may not do. -/
  forbidden : List (Place × Access)

namespace Disk

/-- The disk with nothing in the working directory. -/
def empty : Disk := ⟨∅, []⟩

instance : Inhabited Disk := ⟨empty⟩

/-- What stands at a place. The starts of paths are directories. -/
def node? (disk : Disk) (place : Place) : Option Node :=
  if place.names = [] then some .directory else disk.nodes.get? place

/-- Whether something is forbidden at a place. -/
def forbids (disk : Disk) (place : Place) (access : Access) : Bool :=
  disk.forbidden.contains (place, access)

/-- The bytes that a name on a path may have. -/
def maxNameBytes : Nat := 255

/-- The bytes that a path may have. -/
def maxPathBytes : Nat := 4095

/-- The number of bytes of a name. -/
def byteCount (name : String) : Nat := (Text.Utf8.encode name.toList).length

/-- A name can only be looked up in a directory. -/
def requireDirectory (disk : Disk) (place : Place) : Except PathFault Unit :=
  match disk.node? place with
  | none => .error .missing
  | some (.file _) => .error .notDirectory
  | some .directory => .ok ()

/-- Follows one name. -/
def step (disk : Disk) (place : Place) (name : String) : Except PathFault Place :=
  match disk.requireDirectory place with
  | .error cause => .error cause
  | .ok () =>
    -- Even an empty name needs a directory to stand in: a file with a slash behind it is none.
    -- But it is not looked up.
    if name = "" then .ok place
    else if disk.forbids place .search then .error .denied
    else if name = "." then .ok place
    else if name = ".." then .ok place.parent
    else if maxNameBytes < byteCount name then .error .nameTooLong
    else .ok (place.child name)

/-- Follows the names in turn. -/
def walk (disk : Disk) (start : Place) (names : List String) : Except PathFault Place :=
  names.foldlM disk.step start

/-- What rules a path out before its first name is looked up. -/
def checkPath (path : String) : Except Fault Unit :=
  if path.toList.contains '\x00' then .error .nullInPath
  else if maxPathBytes < byteCount path then .error (.path path .nameTooLong)
  else if path = "" then .error (.path path .missing)
  else .ok ()

/-- The place at the end of a path, and what stands there. -/
def locate (disk : Disk) (path : String) : Except PathFault (Place × Node) :=
  let (start, names) := pathParts path
  match disk.walk start names with
  | .error cause => .error cause
  | .ok place =>
    match disk.node? place with
    | none => .error .missing
    | some node => .ok (place, node)

/-- The bytes of the file at a path. -/
def readBytes (disk : Disk) (path : String) : Except Fault (List UInt8) :=
  match checkPath path with
  | .error fault => .error fault
  | .ok () =>
    match disk.locate path with
    | .error cause => .error (.path path cause)
    | .ok (place, node) =>
      if disk.forbids place .read then .error (.path path .denied)
      else match node with
        | .directory => .error (.path path .isDirectory)
        | .file bytes => .ok bytes

/-- The text of the file at a path, with the line feed as its only line break. -/
def readText (disk : Disk) (path : String) : Except Fault String :=
  (disk.readBytes path).map fun bytes =>
    String.ofList (Text.unifyBreaks (Text.Utf8.decode bytes))

/-- Whether something stands at a path. -/
def isTaken (disk : Disk) (path : String) : Bool :=
  match checkPath path, disk.locate path with
  | .ok _, .ok _ => true
  | _, _ => false

/-- The place of a file `last` in a directory, for writing. A slash after the name asks for a
directory, whatever stands there, and a directory cannot be written. A new file changes the
directory that it is in. -/
def writableChild (disk : Disk) (folder : Place) (last : String) (slash : Bool) :
    Except PathFault Place :=
  match disk.requireDirectory folder with
  | .error cause => .error cause
  | .ok () =>
    if disk.forbids folder .search then .error .denied
    else if slash then .error .isDirectory
    else if maxNameBytes < byteCount last then .error .nameTooLong
    else match disk.node? (folder.child last) with
      | some .directory => .error .isDirectory
      | some (.file _) =>
        if disk.forbids (folder.child last) .write then .error .denied else .ok (folder.child last)
      | none => if disk.forbids folder .write then .error .denied else .ok (folder.child last)

/-- The place at which a path can be opened for writing: that of its last name, in the
directory to which the names before it lead. -/
def writablePlace (disk : Disk) (path : String) : Except PathFault Place :=
  let (start, names) := pathParts path
  match names.reverse.dropWhile (· = "") with
  | [] => .error .isDirectory
  | last :: before =>
    if last = "." || last = ".." then
      -- The names are followed all the same: one that leads nowhere is noticed first.
      (disk.walk start names).bind fun _ => .error .isDirectory
    else
      (disk.walk start before.reverse).bind fun folder =>
        disk.writableChild folder last (names.getLast? = some "")

/-- Opens the file at a path for writing, and gives its place. -/
def openPlace (disk : Disk) (path : String) : Except Fault Place :=
  match checkPath path with
  | .error fault => .error fault
  | .ok () =>
    match disk.writablePlace path with
    | .error cause => .error (.path path cause)
    | .ok place => .ok place

/-- The disk with a file at a place that is open. -/
def store (disk : Disk) (place : Place) (bytes : List UInt8) : Disk :=
  { disk with nodes := disk.nodes.set place (.file bytes) }

/-- A place that can be written is that of a name in a directory. -/
theorem names_ne_nil_of_writablePlace {disk : Disk} {path : String} {place : Place}
    (h : disk.writablePlace path = .ok place) : place.names ≠ [] := by
  -- The last name stands behind those of the folder, so there is one.
  have hchild : ∀ folder last slash,
      disk.writableChild folder last slash = .ok place → place.names ≠ [] := by
    intro folder last slash hw
    unfold writableChild at hw
    split at hw
    · cases hw
    · -- Wherever the place is given, it is that of the name.
      repeat' split at hw
      all_goals cases hw
      all_goals simp [Place.child]
  simp only [writablePlace] at h
  split at h
  · cases h
  · split at h
    · cases hw : disk.walk (pathParts path).1 (pathParts path).2 <;> rw [hw] at h <;> cases h
    · rename_i last before _ _
      cases hw : disk.walk (pathParts path).1 before.reverse with
      | error cause => rw [hw] at h; cases h
      | ok folder => rw [hw] at h; exact hchild folder last _ h

/-- Writing to a file puts the bytes at its place and changes nothing else. -/
theorem node?_store (disk : Disk) {place : Place} (h : place.names ≠ []) (bytes : List UInt8)
    (other : Place) :
    (disk.store place bytes).node? other
      = if other = place then some (.file bytes) else disk.node? other := by
  unfold node? store
  by_cases hother : other = place
  · rw [if_pos hother, hother, if_neg h]
    exact Table.get?_alter_self _ _ _
  · rw [if_neg hother]
    simp only [Table.set, Table.get?_alter_of_ne _ _ hother]

/-! ### Setting the scene

A disk is put together from the files that are on it. Here the directories on
the way come into being with the file. -/

/-- The directories above a place, outermost first. -/
def directoriesAbove (place : Place) : List Place :=
  (List.range place.names.length).tail.map fun count =>
    { place with names := place.names.take count }

/-- Puts a file at a path, with its directories. -/
def put (disk : Disk) (path : String) (bytes : List UInt8) : Disk :=
  let place := Place.ofPath path
  let nodes := (directoriesAbove place).foldl (fun nodes folder => nodes.set folder .directory)
    disk.nodes
  { disk with nodes := nodes.set place (.file bytes) }

/-- Makes the directory at a path, with those above it. -/
def makeDirectory (disk : Disk) (path : String) : Disk :=
  let place := Place.ofPath path
  { disk with
    nodes := (directoriesAbove place ++ [place]).foldl
      (fun nodes folder => nodes.set folder .directory) disk.nodes }

/-- Takes the file at a path away; its directories stay. -/
def remove (disk : Disk) (path : String) : Disk :=
  { disk with nodes := disk.nodes.erase (Place.ofPath path) }

/-- The files of `later` that are not on `earlier` with the same bytes, under their paths. -/
def changes (earlier later : Disk) : List (String × List UInt8) :=
  later.nodes.entries.filterMap fun (place, node) =>
    match node with
    | .directory => none
    | .file bytes =>
      if earlier.nodes.get? place = some node then none else some (place.spelling, bytes)

end Disk

end LineCoverage
