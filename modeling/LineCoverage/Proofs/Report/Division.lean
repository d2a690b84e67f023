import LineCoverage.Proofs.Report.Page
import LineCoverage.Proofs.Text.Markup
import Mathlib.Data.List.Nodup

/-!
# `LineCoverage.Proofs.Report.Division`: what an annotated source shows

Below its heading an annotated source is a list of divisions, one for each line
of the source. A `Division` has what stands between the markup, as it is
written, and `Division.Shows` says what that has to be for a line with a number:
the verdict that the model gives to the number, its counts, and the text of the
line. `sourceText_shows` says that the divisions of a source show its lines, all
of them and in order, wherever the source can be written.

The model has its own numbers, in no order, some of them perhaps not lines of
the source at all. Where every line with a verdict is a line of the source,
going through the source finds the same lines as going through the model
(`SourceFile.linesWith_eq`), so the divisions are marked as often as the tally
of the file says.
-/

set_option autoImplicit false

namespace LineCoverage

/-- Where every line with a verdict is one of the first `n` lines, going through the numbers from
one to `n` finds as many lines with a verdict as going through the numbers of the file. -/
theorem SourceFile.linesWith_eq {file : SourceFile} {n : Nat}
    (h : ∀ number verdict, file.verdict number = some verdict → 1 ≤ number ∧ number ≤ n)
    (verdict : Verdict) :
    file.linesWith verdict
      = (List.range n).countP fun index => file.verdict (index + 1 : Nat) = some verdict := by
  have hnodup : ((List.range n).map fun index => ((index + 1 : Nat) : Int)).Nodup :=
    List.Nodup.map (fun left right heq => by omega) List.nodup_range
  have hall : ∀ number, file.verdict number = some verdict →
      number ∈ (List.range n).map fun index => ((index + 1 : Nat) : Int) := by
    intro number hverdict
    obtain ⟨hfirst, hlast⟩ := h number verdict hverdict
    exact List.mem_map.mpr ⟨number.toNat - 1, List.mem_range.mpr (by omega), by omega⟩
  rw [linesWith_eq_countP hnodup hall, List.countP_map]
  rfl

namespace Page

open Text

/-! ### Divisions -/

/-- One line of an annotated source, by what stands between its markup. -/
structure Division where
  id : String
  classes : List String
  number : String
  note : String
  text : String
  /-- The rows of the table of instructions, if there is one. -/
  table : Option (List String)

namespace Division

/-- A table of instructions as it is written. -/
def tableText (table : List String) : String :=
  "<table class=\"ops hidden\"><tr><th>Script<th>PC<th>#<th>Instruction</tr>"
    ++ String.join table ++ "</table>"

/-- A division as it is written. -/
def write (division : Division) : String :=
  "<div id=\"" ++ division.id ++ "\" class=\"" ++ " ".intercalate division.classes
    ++ "\"><a href=\"#" ++ division.id ++ "\" class=\"num\">" ++ division.number
    ++ "</a><span class=\"type\">" ++ division.note ++ "</span>" ++ division.text
    ++ (division.table.map tableText).getD "" ++ "</div>\n"

/-- The division without its table. -/
def withoutTable (division : Division) : Division := { division with table := none }

/-- Whether a division has the class of a verdict. -/
def marks (verdict : Verdict) (division : Division) : Bool := verdict.label ∈ division.classes

/-- How many divisions have the class of each verdict. -/
def tally (divisions : List Division) : Tally where
  covered := divisions.countP (marks .covered)
  partlyCovered := divisions.countP (marks .partlyCovered)
  uncovered := divisions.countP (marks .uncovered)
  dead := divisions.countP (marks .dead)

/-- The marks stay without the tables. -/
theorem tally_withoutTable (divisions : List Division) :
    tally (divisions.map withoutTable) = tally divisions := by
  simp only [tally, List.countP_map]
  rfl

end Division

/-- The heading above a source as it is written. -/
def headingText (name : String) : String :=
  "<a name=\"" ++ escaped name ++ "\"><h2>" ++ escaped name ++ "</h2></a>\n"

/-- A row of a table of instructions as it is written. -/
def operationText (inst : Instruction) : String :=
  "<tr><td>" ++ escaped inst.script ++ "<td>" ++ toString inst.pc ++ "<td>" ++ toString inst.count
    ++ "<td>" ++ escaped inst.asm ++ "</tr>"

/-- The classes of a line: with a verdict it has the verdict's word and its heat. -/
def lineClasses (file : SourceFile) (number : Int) : List String :=
  match file.verdict number with
  | none => ["line"]
  | some verdict =>
    ["line", verdict.label,
      "p" ++ toString (heat ((file.insts number).map (·.count)) (hottest file))]

/-- The note on a line: the counts of its instructions if it is covered, and otherwise the word for
its verdict. -/
def lineNote (file : SourceFile) (number : Int) : String :=
  match file.verdict number with
  | none => ""
  | some .covered =>
    "// " ++ ",".intercalate ((file.insts number).map fun inst => toString inst.count)
  | some verdict => "// " ++ verdict.label

/-- A division shows a line of a source under its number: it is what the coverage of the target says
about the number, with the text of the line. -/
structure Division.Shows (division : Division) (target : Target) (number : Nat) (line : String) :
    Prop where
  id : division.id = escaped target.name ++ ":" ++ toString number
  classes : division.classes = lineClasses target.file number
  numeral : division.number = toString number
  note : division.note = lineNote target.file number
  /-- The text is that of the line. An empty line has a space. -/
  text : unescape division.text.toList = if line = "" then [' '] else line.toList
  /-- Nothing in the text can be taken for markup. -/
  closed : delimiters division.text.toList = []
  /-- A line that the coverage knows has a table with one row for each of its instructions. -/
  table : division.table = if (number : Int) ∈ target.file.lines.keys then
      some ((target.file.insts number).map operationText)
    else none

/-! ### Rows as divisions -/

/-- The note on a line, with its numbers in decimal. -/
def noteText : Option Mark → String
  | none => ""
  | some mark =>
    if mark.verdict = .covered then "// " ++ ",".intercalate (mark.counts.map toString)
    else "// " ++ mark.verdict.label

/-- What is written for a row. -/
def Row.division (row : Row) : Division where
  id := escaped row.name ++ ":" ++ toString row.number
  classes :=
    match row.mark with
    | none => ["line"]
    | some mark => ["line", mark.verdict.label, "p" ++ toString mark.heat]
  number := toString row.number
  note := noteText row.mark
  text := escaped (if row.text = "" then " " else row.text)
  table := row.operations.map (·.map operationText)

/-- The heading is written as it should be. -/
theorem writePieces_sourceHeading (name : String) :
    writePieces (sourceHeading name) = headingText name := by
  simp only [sourceHeading, headingText, writePieces_markup, writePieces_text, writePieces_nil,
    String.append_assoc, String.append_empty]

/-- What is written for the members of a list, one by one. -/
theorem writePieces_of_mapM {α : Type} {f : α → Except Fault (List Piece)} {g : α → String}
    {members : List α} {written : List (List Piece)} (h : members.mapM f = .ok written)
    (hf : ∀ member pieces, f member = .ok pieces → writePieces pieces = g member) :
    writePieces written.flatten = String.join (members.map g) := by
  rw [writePieces_flatten]
  congr 1
  have heach := forall₂_of_mapM h
  clear h
  induction heach with
  | nil => rfl
  | cons hfirst _ ih => rw [List.map_cons, List.map_cons, ih, hf _ _ hfirst]

/-- A note is written as it should be. -/
theorem eq_noteText {mark : Option Mark} {note : String} (h : Mark.note mark = .ok note) :
    note = noteText mark := by
  cases mark with
  | none => exact (Except.ok.inj h).symm
  | some mark =>
      unfold Mark.note at h
      unfold noteText
      dsimp only at h ⊢
      split at h
      · rename_i hcovered
        cases hcounts : mark.counts.mapM Numeral.write with
        | error fault =>
            rw [hcounts] at h
            cases h
        | ok counts =>
            rw [hcounts] at h
            rw [if_pos hcovered, ← eq_of_mapM_write hcounts]
            exact (Except.ok.inj h).symm
      · rename_i hcovered
        rw [if_neg hcovered]
        exact (Except.ok.inj h).symm

/-- A row of a table of instructions is written as it should be. -/
theorem writePieces_operationPieces {inst : Instruction} {pieces : List Piece}
    (h : operationPieces inst = .ok pieces) : writePieces pieces = operationText inst := by
  unfold operationPieces at h
  cases hpc : Numeral.write inst.pc with
  | error fault =>
      rw [hpc] at h
      cases h
  | ok pc =>
      cases hcount : Numeral.write inst.count with
      | error fault =>
          rw [hpc, hcount] at h
          cases h
      | ok count =>
          rw [hpc, hcount] at h
          obtain rfl := Except.ok.inj h
          obtain ⟨-, rfl⟩ := (Numeral.write_eq_ok_iff _ _).mp hpc
          obtain ⟨-, rfl⟩ := (Numeral.write_eq_ok_iff _ _).mp hcount
          unfold operationText
          rw [writePieces_markup, writePieces_text, writePieces_markup, writePieces_text,
            writePieces_markup, writePieces_nil]
          simp only [String.append_assoc, String.append_empty]

/-- A table of instructions is written as it should be. -/
theorem writePieces_operationsPieces {insts : List Instruction} {pieces : List Piece}
    (h : operationsPieces insts = .ok pieces) :
    writePieces pieces = Division.tableText (insts.map operationText) := by
  unfold operationsPieces at h
  cases hrows : insts.mapM operationPieces with
  | error fault =>
      rw [hrows] at h
      cases h
  | ok rows =>
      rw [hrows] at h
      obtain rfl := Except.ok.inj h
      unfold Division.tableText
      dsimp only
      rw [List.cons_append, writePieces_markup, writePieces_append,
        writePieces_of_mapM hrows fun _ _ => writePieces_operationPieces, writePieces_markup,
        writePieces_nil]
      simp only [String.append_assoc, String.append_empty]

/-- The classes of a mark are separated by spaces. -/
theorem classes_mark (mark : Option Mark) :
    Mark.classes mark = " ".intercalate
      (match mark with
        | none => ["line"]
        | some mark => ["line", mark.verdict.label, "p" ++ toString mark.heat]) := by
  cases mark with
  | none => rfl
  | some mark =>
      have hline : "line " = "line" ++ " " := rfl
      have hheat : " p" = " " ++ "p" := rfl
      simp only [Mark.classes, String.intercalate_cons_cons, String.intercalate_singleton, hline,
        hheat, String.append_assoc]

/-- The parts of a row that was written. -/
theorem Row.pieces_eq_ok {row : Row} {pieces : List Piece} (h : row.pieces = .ok pieces) :
    ∃ note table, Mark.note row.mark = .ok note ∧
      row.operations.mapM operationsPieces = .ok table ∧
      pieces = .markup "<div id=\"" :: row.address
        ++ .markup ("\" class=\"" ++ Mark.classes row.mark ++ "\"><a href=\"#") :: row.address
        ++ [.markup ("\" class=\"num\">" ++ toString row.number ++ "</a><span class=\"type\">"
              ++ note ++ "</span>"),
            .text (if row.text = "" then " " else row.text)]
        ++ table.getD [] ++ [.markup "</div>\n"] := by
  unfold Row.pieces at h
  cases hnote : Mark.note row.mark with
  | error fault =>
      rw [hnote] at h
      cases h
  | ok note =>
      cases htable : row.operations.mapM operationsPieces with
      | error fault =>
          rw [hnote, htable] at h
          cases h
      | ok table =>
          rw [hnote, htable] at h
          exact ⟨note, table, rfl, rfl, (Except.ok.inj h).symm⟩

/-- **A row is written as its division.** -/
theorem writePieces_row {row : Row} {pieces : List Piece} (h : row.pieces = .ok pieces) :
    writePieces pieces = row.division.write := by
  obtain ⟨note, table, hnote, htable, rfl⟩ := Row.pieces_eq_ok h
  obtain rfl := eq_noteText hnote
  have htable : writePieces (table.getD [])
      = ((row.operations.map (·.map operationText)).map Division.tableText).getD "" := by
    cases hoperations : row.operations with
    | none =>
        rw [hoperations] at htable
        cases htable
        rfl
    | some insts =>
        rw [hoperations] at htable
        cases hinsts : operationsPieces insts with
        | error fault =>
            simp [Option.mapM_some, hinsts, Functor.map, Except.map] at htable
        | ok pieces =>
            simp only [Option.mapM_some, hinsts, Functor.map, Except.map] at htable
            cases htable
            exact writePieces_operationsPieces hinsts
  have haddress : writePieces row.address = row.division.id := by
    unfold Row.address Row.division
    rw [writePieces_text, writePieces_markup, writePieces_nil, String.append_empty,
      String.append_assoc]
  have hclasses : Mark.classes row.mark = " ".intercalate row.division.classes :=
    classes_mark row.mark
  unfold Division.write
  rw [writePieces_append, writePieces_append, writePieces_append, writePieces_append,
    writePieces_markup, writePieces_markup, writePieces_markup, writePieces_text,
    writePieces_markup, writePieces_nil, haddress, htable, hclasses]
  simp only [String.append_assoc, String.append_empty]
  rfl

/-! ### What a row has -/

section Row

variable (showOps : Bool) (target : Target) (peak : Int) (number : Nat) (text : String)

/-- The classes are those of the line. -/
theorem classes_division :
    (row showOps target (hottest target.file) number text).division.classes
      = lineClasses target.file number := by
  unfold Row.division lineClasses
  rw [mark_row]
  cases target.file.verdict number <;> rfl

/-- The note is that on the line. -/
theorem note_division :
    (row showOps target peak number text).division.note = lineNote target.file number := by
  unfold Row.division lineNote
  rw [mark_row]
  cases target.file.verdict number with
  | none => rfl
  | some verdict => cases verdict <;> simp [noteText, Function.comp_def]

/-- **The row of a line shows that line.** -/
theorem shows_division :
    (row true target (hottest target.file) number text).division.Shows target number text where
  id := rfl
  classes := classes_division true target number text
  numeral := rfl
  note := note_division true target (hottest target.file) number text
  text := by
    show unescape (escaped (if text = "" then " " else text)).toList = _
    rw [escaped, String.toList_ofList, unescape_escape]
    split
    · rfl
    · rfl
  closed := by
    show delimiters (escaped (if text = "" then " " else text)).toList = []
    rw [escaped, String.toList_ofList, delimiters_escape]
  table := by
    show ((row true target (hottest target.file) number text).operations).map _ = _
    rw [operations_row]
    split <;> rfl

/-- A division is marked by a verdict exactly if the verdict is that on its line. -/
theorem marks_division (verdict : Verdict) :
    (row showOps target (hottest target.file) number text).division.marks verdict = true
      ↔ target.file.verdict number = some verdict := by
  unfold Division.marks
  rw [classes_division, lineClasses, decide_eq_true_eq]
  cases target.file.verdict number with
  | none => cases verdict <;> simp [Verdict.label]
  | some found =>
      -- No class for the heat of a line is the word for a verdict.
      have hheat : ∀ step : String, verdict.label ≠ "p" ++ step := by
        intro step heq
        have hfirst := congrArg (fun word => word.toList.head?) heq
        cases verdict <;> simp [Verdict.label] at hfirst
      have hlabel : verdict.label = found.label ↔ found = verdict := by
        cases verdict <;> cases found <;> decide
      have hline : verdict.label ≠ "line" := by cases verdict <;> decide
      simp [hheat, hlabel, hline]

end Row

/-! ### Annotated sources -/

section Source

variable (target : Target) (source : String)

/-- The divisions for a source. -/
def divisions (showOps : Bool) : List Division := (rows showOps target source).map Row.division

/-- Below the heading there are the divisions. -/
theorem writePieces_sourcePieces {sources : Sources} {showOps : Bool} {pieces : List Piece}
    (hsource : sources target.name = .ok source)
    (h : sourcePieces sources showOps target = .ok pieces) :
    writePieces pieces = headingText target.name
      ++ String.join ((divisions target source showOps).map Division.write) := by
  unfold sourcePieces at h
  cases hrows : (rows showOps target source).mapM Row.pieces with
  | error fault =>
      rw [hsource] at h
      simp [hrows, bind, Except.bind] at h
  | ok written =>
      rw [hsource] at h
      simp only [hrows, bind, Except.bind, pure, Except.pure] at h
      obtain rfl := Except.ok.inj h
      rw [writePieces_append, writePieces_sourceHeading, divisions, List.map_map,
        writePieces_of_mapM hrows fun _ _ => writePieces_row]
      rfl

/-- The annotated source of a target is there exactly if the numbers on its lines are not too long.
Then it is the heading with the divisions below it. -/
theorem sourceText_eq_ok_iff {sources : Sources} {showOps : Bool} {text : String}
    (hsource : sources target.name = .ok source) :
    sourceText sources showOps target = .ok text ↔
      target.file.Writable showOps (lines source).length ∧
      text = headingText target.name
        ++ String.join ((divisions target source showOps).map Division.write) := by
  have hexists := exists_sourcePieces_iff sources showOps target
  simp only [hsource, Except.ok.injEq, exists_eq_left'] at hexists
  rw [← hexists, sourceText]
  cases hpieces : sourcePieces sources showOps target with
  | error fault => simp [Except.map]
  | ok pieces =>
      have hwritten := writePieces_sourcePieces target source hsource hpieces
      simp [Except.map, hwritten, eq_comm]

/-- The tables are all that is left out where no instructions are shown. -/
theorem divisions_false :
    divisions target source false = (divisions target source true).map Division.withoutTable := by
  unfold divisions rows
  rw [List.mapIdx_eq_zipIdx_map, List.mapIdx_eq_zipIdx_map, List.map_map, List.map_map,
    List.map_map]
  rfl

/-- There is a division for each line of the source. -/
theorem length_divisions (showOps : Bool) :
    (divisions target source showOps).length = (lines source).length := by
  simp [divisions, rows]

/-- Each division shows the line at its place. -/
theorem exists_division {index : Nat} {line : String} (h : (lines source)[index]? = some line) :
    ∃ division, (divisions target source true)[index]? = some division ∧
      division.Shows target (index + 1) line := by
  refine ⟨_, ?_, shows_division target (index + 1) line⟩
  simp [divisions, rows, h]

/-- Divisions are marked by a verdict as often as lines of the source have it. -/
theorem countP_marks (showOps : Bool) (verdict : Verdict) :
    (divisions target source showOps).countP (Division.marks verdict)
      = (List.range (lines source).length).countP fun index =>
          target.file.verdict (index + 1 : Nat) = some verdict := by
  rw [List.range_eq_range', ← List.zipIdx_map_snd, List.countP_map]
  rw [divisions, rows, List.mapIdx_eq_zipIdx_map, List.map_map, List.countP_map]
  refine List.countP_congr fun entry _ => ?_
  simpa using marks_division showOps target (entry.2 + 1) entry.1 verdict

/-- Where every line with a verdict is a line of the source, the divisions are marked as often as
the tally of the file says. -/
theorem tally_divisions
    (h : ∀ number verdict, target.file.verdict number = some verdict →
      1 ≤ number ∧ number ≤ (lines source).length) :
    Division.tally (divisions target source true) = target.file.tally := by
  rw [SourceFile.tally_eq, Tally.ofVerdicts_eq]
  simp only [SourceFile.count_verdicts, SourceFile.linesWith_eq h, Division.tally, countP_marks]

end Source

/-- The name of a target stands in every page on it. -/
theorem mem_text_of_mem_name {sources : Sources} {showOps : Bool} {targets : List Target}
    {page : String} (h : text sources showOps targets = .ok page) {target : Target}
    (hmem : target ∈ targets) {c : Char} (hc : c ∈ (escaped target.name).toList) :
    c ∈ page.toList := by
  obtain ⟨summary, bodies, -, hbodies, rfl⟩ := exists_parts h
  have hbody : c ∈ (writePieces bodies.flatten).toList := by
    have heach := forall₂_of_mapM hbodies
    clear hbodies h
    induction heach with
    | nil => cases hmem
    | cons hfirst _ ih =>
        rw [List.flatten_cons, writePieces_append, String.toList_append, List.mem_append]
        rcases List.mem_cons.mp hmem with rfl | hlater
        · -- The heading above the source has it.
          obtain ⟨source, hsource, -⟩ := (exists_sourcePieces_iff sources showOps _).mp ⟨_, hfirst⟩
          rw [writePieces_sourcePieces _ source hsource hfirst]
          left
          simp [headingText, hc]
        · exact .inr (ih hlater)
  simp [writePieces_append, hbody]

/-- **An annotated source shows every line once, with the verdict of the model.** Where the source
can be read, the text of a target is its heading and then the divisions of the source, with tables
of instructions or without; and there is a text unless a number that it shows is too long to be
written. There is one division for each line of the source, in order, and each shows its line. Where
all lines with a verdict are lines of the source, as many divisions have the class of each verdict
as the tally of the file says. -/
theorem sourceText_shows {sources : Sources} {target : Target} {source : String}
    (h : sources target.name = .ok source) :
    ∃ shown hidden : List Division,
      (∀ text, sourceText sources true target = .ok text ↔
        target.file.Writable true (lines source).length ∧
        text = headingText target.name ++ String.join (shown.map Division.write)) ∧
      (∀ text, sourceText sources false target = .ok text ↔
        target.file.Writable false (lines source).length ∧
        text = headingText target.name ++ String.join (hidden.map Division.write)) ∧
      hidden = shown.map Division.withoutTable ∧
      shown.length = (lines source).length ∧
      (∀ (index : Nat) (line : String), (lines source)[index]? = some line →
        ∃ division, shown[index]? = some division ∧ division.Shows target (index + 1) line) ∧
      ((∀ number verdict, target.file.verdict number = some verdict →
          1 ≤ number ∧ number ≤ (lines source).length) →
        Division.tally shown = target.file.tally ∧ Division.tally hidden = target.file.tally) := by
  refine ⟨divisions target source true, divisions target source false,
    fun _ => sourceText_eq_ok_iff target source h, fun _ => sourceText_eq_ok_iff target source h,
    divisions_false target source, length_divisions target source true, ?_, ?_⟩
  · intro index line hline
    exact exists_division target source hline
  · intro hnumbers
    have htally := tally_divisions target source hnumbers
    refine ⟨htally, ?_⟩
    rw [divisions_false, Division.tally_withoutTable, htally]

/-- A source with a line that ran, an empty line, and a line that cannot run. -/
theorem sourceText_shows_unreachable :
    let file := ((SourceFile.empty "a.js").alterLine 1
        (·.add ⟨"a.js:1", 0, ⟨"a.js", 1⟩, 1, "lt", false⟩)).alterLine 3
        (·.add ⟨"a.js:1", 1, ⟨"a.js", 3⟩, 0, "stop", true⟩)
    let target : Target := ⟨"a.js", file⟩
    let sources : Sources := fun _ => .ok "if (a < b)\n\nstop()"
    ∃ shown hidden : List Division,
      sourceText sources true target
        = .ok (headingText "a.js" ++ String.join (shown.map Division.write)) ∧
      sourceText sources false target
        = .ok (headingText "a.js" ++ String.join (hidden.map Division.write)) ∧
      hidden = shown.map Division.withoutTable ∧
      shown.length = 3 ∧
      (∃ division, shown[0]? = some division ∧ division.Shows target 1 "if (a < b)") ∧
      (∃ division, shown[1]? = some division ∧ division.Shows target 2 "") ∧
      Division.tally shown = { covered := 1, partlyCovered := 0, uncovered := 0, dead := 1 } := by
  intro file target sources
  have hlines : lines "if (a < b)\n\nstop()" = ["if (a < b)", "", "stop()"] := by decide
  obtain ⟨shown, hidden, hshown, hhidden, htables, hlength, hshows, htally⟩ :=
    sourceText_shows (show sources target.name = .ok "if (a < b)\n\nstop()" from rfl)
  rw [hlines] at hshown hhidden hlength hshows htally
  have hnumbers : ∀ number verdict, target.file.verdict number = some verdict →
      1 ≤ number ∧ number ≤ 3 := by
    intro number verdict hverdict
    have hmem : number ∈ [(1 : Int), 3] := SourceFile.mem_keys_of_verdict hverdict
    simp only [List.mem_cons, List.not_mem_nil, or_false] at hmem
    omega
  have hsmall : ∀ index < 3, ∀ inst ∈ target.file.insts ((index + 1 : Nat) : Int),
      inst.pc.natAbs < Numeral.firstTooLong ∧ inst.count.natAbs < Numeral.firstTooLong := by
    decide +kernel
  have hwritable : ∀ showOps, target.file.Writable showOps 3 := fun showOps =>
    ⟨fun index hindex _ inst hinst => (hsmall index hindex inst hinst).2, fun _ => hsmall⟩
  exact ⟨shown, hidden, (hshown _).mpr ⟨hwritable true, rfl⟩,
    (hhidden _).mpr ⟨hwritable false, rfl⟩, htables, hlength, hshows 0 _ rfl, hshows 1 _ rfl,
    (htally hnumbers).1⟩

end Page

end LineCoverage
