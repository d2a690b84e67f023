import LineCoverage.Coverage.Model
import LineCoverage.Numeral
import LineCoverage.Text.Quoted

/-!
# `LineCoverage.Coverage.Description`: short descriptions

One-line texts that show what a value holds, for logs and debugging. Names are
quoted.
-/

set_option autoImplicit false

namespace LineCoverage

/-- The four counts of a tally. -/
def Tally.description (tally : Tally) : Except Fault String :=
  (tally.counts.mapM Numeral.write).map fun counts =>
    "Stats(" ++ ", ".intercalate counts ++ ")"

/-- The number of a line, and how many instructions it has. -/
def Line.description (line : Line) (number : Int) : Except Fault String :=
  (Numeral.write number).map fun number =>
    "Line(" ++ number ++ ", insts=" ++ toString line.insts.size ++ ")"

/-- The name of a file. -/
def SourceFile.description (file : SourceFile) : String :=
  "File(" ++ Text.quoted file.name ++ ")"

/-- The names of the files. -/
def Coverage.description (coverage : Coverage) : String :=
  "Coverage(files=[" ++ ", ".intercalate (coverage.files.keys.map Text.quoted) ++ "])"

end LineCoverage
