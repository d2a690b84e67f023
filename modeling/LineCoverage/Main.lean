import LineCoverage.Command.Run

/-!
# `LineCoverage.Main`: the command

A run is a function of the disk that it finds. This module puts that disk
together and carries out what the run left behind.

Nobody knows in advance which files a run will read. It is tried on a disk with
the files looked at so far. If it ends because a path is missing that was not
looked at, that path is looked at and the run is tried again; only the last try
is carried out.

The standard input is read at once, as it is. If it is not text from its first to
its last byte, nothing of it is taken.
-/

set_option autoImplicit false

namespace LineCoverage.Command

/-- The code of the system for a directory where a file is wanted. -/
private def directoryCode : UInt32 := 21

/-- Puts a file at a path of which nothing can be read. -/
private def sealPath (disk : Disk) (path : String) : Disk :=
  { disk.put path [] with forbidden := (Place.ofPath path, .read) :: disk.forbidden }

/-- The paths to the directories on the way to a path, and the path itself. -/
private def stagesOf (path : String) : List String :=
  let names := pathNames path
  (List.range names.length).map fun count => "/".intercalate (names.take (count + 1))

/-- Looks at what stands at a path and on the way to it. -/
private def observe (disk : Disk) (path : String) : IO Disk :=
  (stagesOf path).foldlM (fun (disk : Disk) (stage : String) => do
    match ← (IO.FS.readBinFile stage).toBaseIO with
    | .ok bytes => return disk.put stage bytes.toList
    | .error (.inappropriateType _ code _) =>
      return if code = directoryCode then disk.makeDirectory stage else disk
    | .error (.permissionDenied ..) => return if stage = path then sealPath disk path else disk
    | .error _ => return disk) disk

/-- Tries a run until it lacks no path that was not looked at. -/
private partial def settle (surroundings : Surroundings) (arguments seen : List String) :
    IO (Surroundings × Outcome) := do
  let outcome := run surroundings arguments
  match outcome.fault with
  | some (.path path .missing) =>
    -- A path that was looked at and is missing still is really missing.
    if seen.contains path then return (surroundings, outcome)
    else
      let disk ← observe surroundings.disk path
      settle { surroundings with disk := disk } arguments (path :: seen)
  | _ => return (surroundings, outcome)

/-- The standard input, if the trace comes from there. -/
private def inputFor (settings : Settings) : IO Input := do
  if settings.data.getD "" ≠ "" then return .whole "" false
  let bytes := (← (← IO.getStdin).readBinToEnd).toList
  let text := Text.Utf8.decode bytes
  if Text.Utf8.encode text = bytes then return .whole (String.ofList text) false
  else return ⟨"", false, some (.undecodable "the standard input is not UTF-8")⟩

/-- The name of a new file, if the page needs one. -/
private def scratchFor (settings : Settings) : IO String := do
  if settings.page ≠ .unsaid || !settings.openPage then return ""
  let (_, path) ← IO.FS.createTempFile
  return path.toString ++ ".html"

/-- What a run with some settings finds, before any source is looked at. -/
private def surroundingsFor (settings : Settings) (terminal : Bool) : IO Surroundings := do
  let page := match settings.page with
    | .file path => [path]
    | _ => []
  let disk ← (settings.data.toList ++ page).foldlM observe Disk.empty
  return {
    disk := disk
    input := ← inputFor settings
    stray? := fun _ => none
    terminal := terminal
    here := (← IO.currentDir).toString
    scratch := ← scratchFor settings }

/-- Writes the files that a run left on its disk. A page cannot be opened from here, so its
address is given to the user. -/
private def carryOut (found : Disk) (outcome : Outcome) : IO UInt32 := do
  IO.print outcome.stdout
  IO.eprint outcome.stderr
  for (path, bytes) in found.changes outcome.disk do
    IO.FS.writeBinFile path (ByteArray.mk bytes.toArray)
  for address in outcome.opened do
    IO.eprintln address
  if let some fault := outcome.unexpected then IO.eprintln fault.message
  return UInt32.ofNat outcome.exitCode

/-- Runs the command on the real disk, and gives its exit code. -/
def execute (arguments : List String) : IO UInt32 := do
  let terminal ← (← IO.getStdout).isTty
  let bare : Surroundings := ⟨.empty, .whole "" false, fun _ => none, terminal, "", ""⟩
  match Request.ofTexts terminal arguments with
  | .ok (.run settings) =>
    let (surroundings, outcome) ← settle (← surroundingsFor settings terminal) arguments []
    carryOut surroundings.disk outcome
  | _ => carryOut .empty (run bare arguments)

end LineCoverage.Command

/-- The command. -/
def main (arguments : List String) : IO UInt32 := LineCoverage.Command.execute arguments
