import LineCoverage.Fault

/-!
# `LineCoverage.Source`: the texts of source files

Directives and annotated pages are read off source files. What is there to be
read is passed in, path by path, so that a caller decides where it comes from.
-/

set_option autoImplicit false

namespace LineCoverage

/-- The text at each path, or why it cannot be read. -/
abbrev Sources := String → Except Fault String

end LineCoverage
