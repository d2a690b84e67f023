import LineCoverage.Proofs.Numeral
import LineCoverage.Proofs.Trace.Grammar

/-!
# `LineCoverage.Proofs.Trace.Layout`: the parts of an instruction record

A `Layout` is an instruction record with all of its text in parts: the columns,
the blanks between them, and what follows the brackets. `Layout.Valid` says what
each part may be, and nothing else. In particular the last part may be any text,
with brackets, colons or another record in it.

A text has one layout at most (`Layout.eq_of_text_eq`), because each part is
followed by a character of another class. The scan finds exactly this one:
`Record.exists_layout` takes a text that is read as an instruction to a layout
with the columns that were read, and `Record.instruction?_text` goes back.

`Reader.processLine_layout` puts both together with what a script gets from the
record: the numbers by their positions (`Numeral.value_eq_positional`), and the
disassembly without the blanks around it. Carriage returns at the end of a line
are such blanks, so they make no difference to the parts in front of them
(`Layout.lineText_eq`).
-/

set_option autoImplicit false

namespace LineCoverage

open Text

/-- An instruction record taken apart: its columns as they are written, and what stands between
them. -/
@[ext]
structure Layout where
  pc : List Char
  /-- The blanks behind the colon. -/
  lineGap : List Char
  line : List Char
  /-- The blanks behind the line. -/
  markGap : List Char
  /-- The mark of an unreachable operation with the blanks behind it, or nothing. -/
  mark : List Char
  /-- The blanks behind the opening bracket, if there are any. -/
  countGap : List Char
  count : List Char
  /-- All that follows the closing bracket. -/
  rest : List Char

namespace Layout

open Record.Kind

/-- The record that has these parts. -/
def text (layout : Layout) : List Char :=
  layout.pc ++ ':' :: layout.lineGap ++ layout.line ++ layout.markGap ++ layout.mark
    ++ '[' :: layout.countGap ++ layout.count ++ ']' :: layout.rest

/-- The parts of a record are runs of their classes. Anything may follow the brackets. -/
structure Valid (layout : Layout) : Prop where
  pc : layout.pc ∈ atLeast 5 isDigit
  lineGap : layout.lineGap ∈ atLeast 1 isBlank
  line : layout.line ∈ atLeast 1 isDigit
  markGap : layout.markGap ∈ atLeast 1 isBlank
  mark : layout.mark ∈ Record.Kind.marking
  countGap : layout.countGap ∈ atLeast 0 isBlank
  count : layout.count ∈ atLeast 1 isDigit

/-- The disassembly: what follows the closing bracket, without the blanks around it. -/
def asm (layout : Layout) : List Char := trimEnd (trimStart layout.rest)

/-- The columns of a record are its parts. -/
def columns (layout : Layout) : InstructionText where
  pc := layout.pc
  line := layout.line
  unreachable := !layout.mark.isEmpty
  count := layout.count
  asm := layout.asm

/-- The instruction of a script that a record says, if its line stands where it belongs. -/
def instruction (layout : Layout) (script : Script) : Instruction where
  script := script.name
  pc := Numeral.positional layout.pc
  location := ⟨script.path, Numeral.positional layout.line⟩
  count := Numeral.positional layout.count
  asm := String.ofList layout.asm
  unreachable := !layout.mark.isEmpty

/-- The mark of a record can be told from what follows it. -/
theorem Valid.mark_inj {layout other : Layout} (h : layout.Valid) (hother : other.Valid)
    {rest remainder : List Char}
    (heq : layout.mark ++ '[' :: rest = other.mark ++ '[' :: remainder) :
    layout.mark = other.mark ∧ rest = remainder := by
  have hbracket : ∀ rest, Stops isBlank ('[' :: rest) := stops_cons (by decide)
  rcases mem_marking.mp h.mark with hmark | ⟨gap, hgap, hmark⟩ <;>
    rcases mem_marking.mp hother.mark with hnone | ⟨space, hspace, hnone⟩ <;>
    rw [hmark, hnone] at heq ⊢
  · exact ⟨rfl, (List.cons.inj heq).2⟩
  · cases heq
  · cases heq
  · obtain ⟨hsame, hrest⟩ := append_inj_of_stops hgap.2 hspace.2 (hbracket rest)
      (hbracket remainder) (List.cons.inj heq).2
    exact ⟨congrArg ('x' :: ·) hsame, (List.cons.inj hrest).2⟩

/-- A record has one layout. -/
theorem eq_of_text_eq {layout other : Layout} (h : layout.Valid) (hother : other.Valid)
    (heq : layout.text = other.text) : layout = other := by
  have hdigit : ∀ c, isBlank c = true → isDigit c = false := fun c => isDigit_of_isBlank
  have hblank : ∀ c, isDigit c = true → isBlank c = false := fun c => isBlank_of_isDigit
  have hcolon : ∀ rest, Stops isDigit (':' :: rest) := stops_cons (by decide)
  have hbracket : ∀ rest, Stops isDigit (']' :: rest) := stops_cons (by decide)
  simp only [text, List.append_assoc, List.cons_append] at heq
  -- From the left, each part ends where the next one begins.
  obtain ⟨hpc, heq⟩ := append_inj_of_stops h.pc.2 hother.pc.2 (hcolon _) (hcolon _) heq
  obtain ⟨hlineGap, heq⟩ := append_inj_of_stops h.lineGap.2 hother.lineGap.2
    (stops_append h.line hblank _) (stops_append hother.line hblank _) (List.cons.inj heq).2
  obtain ⟨hline, heq⟩ := append_inj_of_stops h.line.2 hother.line.2
    (stops_append h.markGap hdigit _) (stops_append hother.markGap hdigit _) heq
  obtain ⟨hmarkGap, heq⟩ := append_inj_of_stops h.markGap.2 hother.markGap.2
    (stops_marking h.mark _) (stops_marking hother.mark _) heq
  obtain ⟨hmark, heq⟩ := h.mark_inj hother heq
  obtain ⟨hcountGap, heq⟩ := append_inj_of_stops h.countGap.2 hother.countGap.2
    (stops_append h.count hblank _) (stops_append hother.count hblank _) heq
  obtain ⟨hcount, heq⟩ := append_inj_of_stops h.count.2 hother.count.2
    (hbracket _) (hbracket _) heq
  exact Layout.ext hpc hlineGap hline hmarkGap hmark hcountGap hcount (List.cons.inj heq).2

end Layout

namespace Record

open Kind

/-- A text that is read as an instruction has a layout with the columns that are read. -/
theorem exists_layout {text : List Char} {columns : InstructionText}
    (h : instruction? text = some columns) :
    ∃ layout : Layout, layout.Valid ∧ layout.text = text ∧ '\n' ∉ trimStart layout.rest
      ∧ layout.columns = columns := by
  simp only [instruction?, bind, Option.bind_eq_some_iff, Option.filter_eq_some_iff] at h
  obtain ⟨⟨pc, afterPc⟩, ⟨hafterPc, hfive⟩, afterColon, hcolon, fromLine, hfromLine,
    ⟨line, afterLine⟩, hafterLine, fromMark, hfromMark, ⟨unreachable, fromBracket⟩, hmarked,
    afterBracket, hbracket, ⟨count, afterCount⟩, hafterCount, rest, hclosing, hcolumns⟩ := h
  simp only [literal?_eq_some_iff] at hcolon hbracket hclosing
  -- Each part was found at the front of what the one before it left.
  obtain ⟨rfl, hpc, -⟩ := run?_eq_some_iff_mem.mp hafterPc
  obtain ⟨lineGap, rfl, hlineGap, -⟩ := blanks?_eq_some_iff.mp hfromLine
  obtain ⟨rfl, hline, -⟩ := run?_eq_some_iff_mem.mp hafterLine
  obtain ⟨markGap, rfl, hmarkGap, -⟩ := blanks?_eq_some_iff.mp hfromMark
  change fromBracket = '[' :: afterBracket at hbracket
  rw [hbracket] at hmarked
  obtain ⟨mark, hmark, rfl, rfl⟩ := mark?_eq_some_iff.mp hmarked
  obtain ⟨countGap, hcountGap, hafter⟩ := exists_append_trimStart afterBracket
  obtain ⟨hfrom, hcount, -⟩ := run?_eq_some_iff_mem.mp hafterCount
  rw [hfrom, hclosing] at hafter
  split at hcolumns
  · cases hcolumns
  · rename_i honeLine
    refine ⟨⟨pc, lineGap, line, markGap, mark, countGap, count, rest⟩,
      ⟨⟨by simpa using hfive, hpc.2⟩, hlineGap, hline, hmarkGap, hmark, hcountGap, hcount⟩,
      ?_, by simpa using honeLine, Option.some.inj hcolumns⟩
    rw [hcolon, hafter]
    simp [Layout.text]

/-- A text with a layout is read as the columns of the layout, unless its disassembly is more than
one line. -/
theorem instruction?_text {layout : Layout} (h : layout.Valid)
    (honeLine : '\n' ∉ trimStart layout.rest) :
    instruction? layout.text = some layout.columns := by
  have hdigit : ∀ c, isBlank c = true → isDigit c = false := fun c => isDigit_of_isBlank
  have hblank : ∀ c, isDigit c = true → isBlank c = false := fun c => isBlank_of_isDigit
  have hliteral : ∀ c rest, literal? (String.singleton c) (c :: rest) = some rest := by
    intro c rest
    rw [literal?_eq_some_iff]
    simp
  simp only [instruction?, bind, Option.bind_eq_some_iff, Option.filter_eq_some_iff, Layout.text,
    List.append_assoc, List.cons_append]
  -- Each part is found in front of the next one.
  refine ⟨_, ⟨run?_append (atLeast_one_of_mem h.pc) (stops_cons (by decide) _),
    decide_eq_true h.pc.1⟩, _, hliteral ':' _, _,
    blanks?_append h.lineGap (stops_append h.line hblank _), _,
    run?_append h.line (stops_append h.markGap hdigit _), _,
    blanks?_append h.markGap (stops_marking h.mark _), _,
    mark?_eq_some_iff.mpr ⟨layout.mark, h.mark, rfl, rfl⟩, _, hliteral '[' _,
    (layout.count, ']' :: layout.rest), ?_, _, hliteral ']' _, if_neg (by simpa using honeLine)⟩
  rw [trimStart_append h.countGap (stops_append h.count hblank _)]
  exact run?_append h.count (stops_cons (by decide) _)

end Record

namespace Layout

/-- Around the disassembly there are blanks only. -/
theorem rest_mem (layout : Layout) :
    layout.rest ∈ atLeast 0 isBlank * {layout.asm} * atLeast 0 isBlank := by
  obtain ⟨front, hfront, hrest⟩ := exists_append_trimStart layout.rest
  obtain ⟨back, hback, hblank⟩ := exists_dropTrailing_append isBlank (trimStart layout.rest)
  have hparts : layout.rest = front ++ layout.asm ++ back := by
    show layout.rest = front ++ dropTrailing isBlank (trimStart layout.rest) ++ back
    rw [List.append_assoc, ← hback, ← hrest]
  rw [hparts]
  exact Language.append_mem_mul (Language.append_mem_mul hfront rfl) (mem_atLeast_zero.mpr hblank)

/-- The layout of a record without the carriage returns at its end. -/
def withoutReturns (layout : Layout) : Layout :=
  { layout with rest := dropTrailing (· == '\r') layout.rest }

/-- Its parts are runs of the same classes. -/
theorem Valid.withoutReturns {layout : Layout} (h : layout.Valid) : layout.withoutReturns.Valid :=
  ⟨h.pc, h.lineGap, h.line, h.markGap, h.mark, h.countGap, h.count⟩

/-- The carriage returns at the end of a record are behind its brackets. -/
theorem lineText_eq {layout : Layout} {line : String} (h : layout.text = line.toList) :
    Record.lineText line = layout.withoutReturns.text := by
  show dropTrailing (· == '\r') line.toList = layout.withoutReturns.text
  rw [← h]
  exact dropTrailing_append_cons rfl _ layout.rest

/-- They are blanks around the disassembly. -/
theorem columns_withoutReturns (layout : Layout) :
    layout.withoutReturns.columns = layout.columns := by
  have hasm : layout.withoutReturns.asm = layout.asm := by
    obtain ⟨returns, hrest, hreturns⟩ := exists_dropTrailing_append (· == '\r') layout.rest
    have hblank : ∀ c ∈ returns, isBlank c = true := by
      intro c hc
      rw [beq_iff_eq.mp (hreturns c hc)]
      decide
    show trimEnd (trimStart (dropTrailing (· == '\r') layout.rest))
      = trimEnd (trimStart layout.rest)
    conv_rhs => rw [hrest]
    exact (trimEnd_trimStart_append hblank _).symm
  unfold columns
  rw [hasm]
  rfl

/-- A record on one line has a disassembly on one line. -/
theorem not_mem_trimStart_rest {layout : Layout} (h : '\n' ∉ layout.text) :
    '\n' ∉ trimStart layout.rest := by
  intro hmem
  have hrest : '\n' ∈ layout.rest := (List.dropWhile_sublist isBlank).subset hmem
  exact h (List.mem_append_right _ (List.mem_cons_of_mem ']' hrest))

/-- A line with a layout is read as its columns. -/
theorem ofLine?_of_text {layout : Layout} {line : String} (hvalid : layout.Valid)
    (htext : layout.text = line.toList) (h : '\n' ∉ line.toList) :
    Record.ofLine? line = some (.instruction layout.columns) := by
  have hlineText := Record.not_mem_lineText h
  rw [lineText_eq htext] at hlineText
  have hread : Record.instruction? (Record.lineText line) = some layout.columns := by
    rw [lineText_eq htext, Record.instruction?_text hvalid.withoutReturns
      (not_mem_trimStart_rest hlineText), columns_withoutReturns]
  exact Record.ofText?_of_instruction? hread

/-- Its numbers can be read if none of them is too long. -/
theorem instruction_eq {layout : Layout} {sources : Sources} {reader : Reader} {script : Script}
    (hplace : reader.relocator = none)
    (hshort : ∀ digits ∈ [layout.pc, layout.line, layout.count], digits.length ≤ maxDigits) :
    reader.instruction sources script layout.columns
      = (.ok (layout.instruction script), reader) := by
  have hread : ∀ digits ∈ [layout.pc, layout.line, layout.count],
      Numeral.read digits = .ok (Numeral.positional digits) := by
    intro digits hdigits
    exact (Numeral.read_eq_ok_iff digits _).mpr ⟨hshort digits hdigits, rfl⟩
  exact Reader.instruction_ok_iff.mpr ⟨_, _, _, _, hread layout.line (by simp),
    hread layout.pc (by simp), hread layout.count (by simp),
    Reader.locate_of_none sources hplace _, rfl⟩

end Layout

namespace Reader

open Record

/-- **An instruction record is read exactly, in every layout.** For a text on one line:

* it is recognised as an instruction exactly if it is at least five digits, a colon, blanks, digits,
  blanks, a mark or nothing, an opening bracket, blanks or nothing, digits, a closing bracket and
  any rest;
* these parts are the only ones;
* what an open script gets from it, with no relocation and no number too long, is an instruction
  with the values of the three numbers, with the rest without the blanks around it, unreachable if
  there is a mark, and of the name and the path of the script. Nothing else changes. -/
theorem processLine_layout (sources : Sources) (line : String) (h : '\n' ∉ line.toList) :
    ((instruction? line.toList).isSome = true ↔
      ∃ layout : Layout, layout.Valid ∧ layout.text = line.toList) ∧
    (∀ layout other : Layout, layout.Valid → layout.text = line.toList →
      other.Valid → other.text = line.toList → layout = other) ∧
    ∀ layout : Layout, layout.Valid → layout.text = line.toList →
      layout.rest ∈ atLeast 0 isBlank * {layout.asm} * atLeast 0 isBlank ∧
      Trimmed layout.asm ∧
      ∀ (reader : Reader) (script : Script),
        reader.current = some script → reader.relocator = none →
        (∀ digits ∈ [layout.pc, layout.line, layout.count], digits.length ≤ maxDigits) →
        reader.processLine sources line
          = (.ok true,
              { reader with current := some (script.push (layout.instruction script)) }) := by
  refine ⟨⟨?_, ?_⟩, ?_, ?_⟩
  · intro hsome
    obtain ⟨columns, hcolumns⟩ := Option.isSome_iff_exists.mp hsome
    obtain ⟨layout, hvalid, htext, -⟩ := exists_layout hcolumns
    exact ⟨layout, hvalid, htext⟩
  · rintro ⟨layout, hvalid, htext⟩
    rw [← htext] at h ⊢
    rw [instruction?_text hvalid (Layout.not_mem_trimStart_rest h)]
    rfl
  · intro layout other hvalid htext hother hsame
    exact Layout.eq_of_text_eq hvalid hother (htext.trans hsame.symm)
  · intro layout hvalid htext
    have honeLine : '\n' ∉ layout.text := by rwa [htext]
    refine ⟨layout.rest_mem, trimmed_trimEnd_trimStart (Layout.not_mem_trimStart_rest honeLine), ?_⟩
    intro reader script hopen hplace hshort
    exact processLine_of_instruction_ok (Layout.ofLine?_of_text hvalid htext h) hopen
      (Layout.instruction_eq hplace hshort)

/-- A record with digits and blanks of other scripts, and a disassembly that looks like records. -/
theorem processLine_layout_lookalike :
    processLine (fun _ => .ok "") { start none with current := some ⟨"a.js:1", "a.js", #[]⟩ }
        "０００１２:\u3000 7\tx\u00a0[ 03]\t] 00000: 1 [2] --- SCRIPT b.js:1 ---\r"
      = (.ok true,
          { start none with
            current := some ⟨"a.js:1", "a.js", #[{
              script := "a.js:1"
              pc := 12
              location := ⟨"a.js", 7⟩
              count := 3
              asm := "] 00000: 1 [2] --- SCRIPT b.js:1 ---"
              unreachable := true }]⟩ }) := by
  let layout : Layout :=
    { pc := "０００１２".toList
      lineGap := "\u3000 ".toList
      line := "7".toList
      markGap := "\t".toList
      mark := "x\u00a0".toList
      countGap := " ".toList
      count := "03".toList
      rest := "\t] 00000: 1 [2] --- SCRIPT b.js:1 ---\r".toList }
  have hmark : layout.mark ∈ Kind.marking :=
    Kind.mem_marking.mpr (.inr ⟨['\u00a0'], by decide, rfl⟩)
  have hvalid : layout.Valid :=
    ⟨by decide, by decide, by decide, by decide, hmark, by decide, by decide⟩
  have htext : layout.text
      = "０００１２:\u3000 7\tx\u00a0[ 03]\t] 00000: 1 [2] --- SCRIPT b.js:1 ---\r".toList := by
    simp [layout, Layout.text]
  have hpc : Numeral.positional layout.pc = 12 := rfl
  have hcount : Numeral.positional layout.count = 3 := rfl
  have hasm : layout.asm = "] 00000: 1 [2] --- SCRIPT b.js:1 ---".toList := by
    rfl
  obtain ⟨-, -, hreads⟩ := processLine_layout (fun _ => .ok "")
    "０００１２:\u3000 7\tx\u00a0[ 03]\t] 00000: 1 [2] --- SCRIPT b.js:1 ---\r" (by decide)
  have hread := (hreads layout hvalid htext).2.2
    { start none with current := some ⟨"a.js:1", "a.js", #[]⟩ } _ rfl rfl (by decide)
  rw [Layout.instruction, hpc, hcount, hasm] at hread
  exact hread

end Reader
end LineCoverage
