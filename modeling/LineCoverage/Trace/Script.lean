/-!
# `LineCoverage.Trace.Script`: instructions and scripts

What a trace reports: scripts, each a list of instructions in the order of the
trace. A script is named by its file and first line, so one file may hold many.
An instruction knows the source line it belongs to by itself, because a
generated file may take its lines from several sources.
-/

set_option autoImplicit false

namespace LineCoverage

/-- A line of a source file. -/
structure Location where
  file : String
  line : Int
  deriving DecidableEq, Repr

/-- What identifies an instruction over a whole trace: its script and its position there. -/
structure Site where
  script : String
  pc : Int
  deriving DecidableEq, Repr

/-- One operation of a script with its execution count. -/
structure Instruction where
  script : String
  pc : Int
  location : Location
  count : Int
  asm : String
  /-- Whether the engine proved that it can never run. -/
  unreachable : Bool
  deriving DecidableEq, Repr

/-- The site of an instruction. -/
def Instruction.site (inst : Instruction) : Site := ⟨inst.script, inst.pc⟩

/-- A section of a trace. `path` is the file that its header names. -/
structure Script where
  name : String
  path : String
  instructions : Array Instruction
  deriving DecidableEq, Repr

/-- A script as its header opens it. -/
def Script.opened (path number : List Char) : Script where
  name := String.ofList (path ++ ':' :: number)
  path := String.ofList path
  instructions := #[]

/-- A script with one more instruction. -/
def Script.push (script : Script) (inst : Instruction) : Script :=
  { script with instructions := script.instructions.push inst }

end LineCoverage
