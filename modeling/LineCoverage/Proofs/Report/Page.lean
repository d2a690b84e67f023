import LineCoverage.Proofs.Coverage.Tally
import LineCoverage.Proofs.Numeral
import LineCoverage.Report.Page

/-!
# `LineCoverage.Proofs.Report.Page`: when a page can be built

A page has the counts of every target and the source of every target
(`exists_parts`). The counts never fail, because they count lines and their
percentages are at most a hundred (`exists_summaryPieces`). A source can be
written if it can be read, and if the numbers that its lines show are not too
long (`SourceFile.Writable`). So a page can be built exactly if that holds of
every target: `exists_text_iff`.
-/

set_option autoImplicit false

namespace LineCoverage

/-- The numbers that a page shows on the first `length` lines of a file are not too long: the counts
of the instructions on a covered line, and with tables the places and counts of all instructions. -/
structure SourceFile.Writable (file : SourceFile) (showOps : Bool) (length : Nat) : Prop where
  notes : ∀ index < length, file.verdict (index + 1 : Nat) = some .covered →
    ∀ inst ∈ file.insts (index + 1 : Nat), inst.count.natAbs < Numeral.firstTooLong
  tables : showOps = true → ∀ index < length, ∀ inst ∈ file.insts (index + 1 : Nat),
    inst.pc.natAbs < Numeral.firstTooLong ∧ inst.count.natAbs < Numeral.firstTooLong

namespace Page

open Text

/-- A list can be worked off exactly if each of its members can. -/
theorem exists_mapM_iff {α β : Type} {f : α → Except Fault β} {members : List α} :
    (∃ results, members.mapM f = .ok results) ↔
      ∀ member ∈ members, ∃ result, f member = .ok result := by
  induction members with
  | nil => simp [pure, Except.pure]
  | cons first rest ih =>
      rw [List.forall_mem_cons, ← ih, List.mapM_cons]
      cases hfirst : f first with
      | error fault => simp [bind, Except.bind]
      | ok result =>
          cases hrest : rest.mapM f with
          | error fault => simp [bind, Except.bind]
          | ok results => simp [bind, Except.bind, pure, Except.pure]

/-- The results of working off a list are those of its members, one by one. -/
theorem forall₂_of_mapM {α β : Type} {f : α → Except Fault β} {members : List α}
    {results : List β} (h : members.mapM f = .ok results) :
    List.Forall₂ (fun member result => f member = .ok result) members results := by
  induction members generalizing results with
  | nil =>
      obtain rfl : [] = results := Except.ok.inj h
      exact .nil
  | cons first rest ih =>
      rw [List.mapM_cons] at h
      cases hfirst : f first with
      | error fault => simp [hfirst, bind, Except.bind] at h
      | ok result =>
          cases hrest : rest.mapM f with
          | error fault => simp [hfirst, hrest, bind, Except.bind] at h
          | ok others =>
              simp only [hfirst, hrest, bind, Except.bind, pure, Except.pure] at h
              obtain rfl := Except.ok.inj h
              exact .cons hfirst (ih hrest)

/-- The row of a target in the table at the top can always be written. -/
theorem exists_summaryPieces (target : Target) :
    ∃ pieces, summaryPieces target = .ok pieces := by
  have hcells : ∃ cells, target.file.tally.counts.mapM (fun count =>
      (percentText target.file.tally count).map fun percent =>
        "<td>" ++ toString count ++ " (" ++ percent ++ ")") = .ok cells := by
    refine exists_mapM_iff.mpr fun count hcount => ?_
    rw [target.file.tally_eq] at hcount ⊢
    obtain ⟨percent, hpercent⟩ := Tally.exists_percentText target.file.verdicts 0 "%" hcount
    unfold percentText
    rw [hpercent]
    exact ⟨_, rfl⟩
  obtain ⟨cells, hcells⟩ := hcells
  unfold summaryPieces
  dsimp only
  rw [hcells]
  exact ⟨_, rfl⟩

/-- Numbers that can be written are written in decimal. -/
theorem eq_of_mapM_write {values : List Int} {texts : List String}
    (h : values.mapM Numeral.write = .ok texts) : texts = values.map toString := by
  have hwritten := forall₂_of_mapM h
  clear h
  induction hwritten with
  | nil => rfl
  | cons hnumber _ ih => rw [List.map_cons, ih, ((Numeral.write_eq_ok_iff _ _).mp hnumber).2]

/-! ### The annotated sources -/

/-- A number can be written exactly if it is not too long. -/
theorem exists_write_iff {n : Int} :
    (∃ text, Numeral.write n = .ok text) ↔ n.natAbs < Numeral.firstTooLong := by
  simp only [Numeral.write_eq_ok_iff, exists_and_left, exists_eq, and_true]

/-- The note on a line can be written exactly if the line is not covered or no count is too long. -/
theorem exists_note_iff (mark? : Option Mark) :
    (∃ note, Mark.note mark? = .ok note) ↔
      ∀ mark, mark? = some mark → mark.verdict = .covered →
        ∀ count ∈ mark.counts, count.natAbs < Numeral.firstTooLong := by
  cases mark? with
  | none => simp [Mark.note]
  | some mark =>
      simp only [Option.some.injEq, forall_eq', ← exists_write_iff, ← exists_mapM_iff]
      unfold Mark.note
      dsimp only
      split
      · rename_i hcovered
        cases hcounts : mark.counts.mapM Numeral.write with
        | error fault => simp [hcovered, Except.map]
        | ok counts => simp [Except.map]
      · rename_i hcovered
        simp [hcovered]

/-- A row of a table of instructions can be written exactly if neither of its numbers is too
long. -/
theorem exists_operationPieces_iff (inst : Instruction) :
    (∃ pieces, operationPieces inst = .ok pieces) ↔
      inst.pc.natAbs < Numeral.firstTooLong ∧ inst.count.natAbs < Numeral.firstTooLong := by
  rw [← exists_write_iff, ← exists_write_iff]
  unfold operationPieces
  cases Numeral.write inst.pc with
  | error fault => simp [bind, Except.bind]
  | ok pc =>
      cases Numeral.write inst.count with
      | error fault => simp [bind, Except.bind]
      | ok count => simp [bind, Except.bind, pure, Except.pure]

/-- A row of a source can be written exactly if its note can, and every row of its table. -/
theorem exists_row_iff (row : Row) :
    (∃ pieces, row.pieces = .ok pieces) ↔
      (∃ note, Mark.note row.mark = .ok note) ∧
      ∀ insts, row.operations = some insts →
        ∀ inst ∈ insts, ∃ pieces, operationPieces inst = .ok pieces := by
  unfold Row.pieces
  cases Mark.note row.mark with
  | error fault => simp [bind, Except.bind]
  | ok note =>
      cases row.operations with
      | none => simp [bind, Except.bind, pure, Except.pure]
      | some insts =>
          simp only [Option.some.injEq, forall_eq', ← exists_mapM_iff]
          cases hrows : insts.mapM operationPieces with
          | error fault =>
              simp [operationsPieces, hrows, bind, Except.bind, Except.map]
          | ok rows =>
              simp [operationsPieces, hrows, bind, Except.bind, Except.map, pure, Except.pure]

section Row

variable (showOps : Bool) (target : Target) (peak : Int) (number : Nat) (text : String)

/-- A line is marked by the verdict on its number. -/
theorem mark_row :
    (row showOps target peak number text).mark = (target.file.verdict number).map fun verdict =>
      { verdict := verdict
        heat := heat ((target.file.insts number).map (·.count)) peak
        counts := (target.file.insts number).map (·.count) } := by
  unfold row SourceFile.verdict SourceFile.insts
  cases target.file.lines.get? number with
  | none => rfl
  | some line => rfl

/-- The instructions that are shown for a line are those under its number. -/
theorem operations_row :
    (row true target peak number text).operations =
      if (number : Int) ∈ target.file.lines.keys then some (target.file.insts number)
      else none := by
  unfold row SourceFile.insts
  simp only [← Table.get?_isSome_iff]
  cases target.file.lines.get? number with
  | none => rfl
  | some line => rfl

/-- The row of a line can be written exactly if the numbers on the line are not too long. -/
theorem exists_pieces_row_iff :
    (∃ pieces, (row showOps target peak number text).pieces = .ok pieces) ↔
      (target.file.verdict number = some .covered →
        ∀ inst ∈ target.file.insts number, inst.count.natAbs < Numeral.firstTooLong) ∧
      (showOps = true → ∀ inst ∈ target.file.insts number,
        inst.pc.natAbs < Numeral.firstTooLong ∧ inst.count.natAbs < Numeral.firstTooLong) := by
  rw [exists_row_iff, exists_note_iff, mark_row]
  refine and_congr ?_ ?_
  · cases target.file.verdict number <;> simp
  · simp only [exists_operationPieces_iff]
    cases showOps with
    | false => simp [row]
    | true =>
        rw [operations_row]
        split
        · simp
        · -- A line that is not there has no instructions.
          rename_i hmissing
          simp [SourceFile.insts, Table.get?_eq_none_iff.mpr hmissing]

end Row

/-- The rows of a source can be written exactly if the numbers on its lines are not too long. -/
theorem exists_rows_iff (showOps : Bool) (target : Target) (source : String) :
    (∃ written, (rows showOps target source).mapM Row.pieces = .ok written) ↔
      target.file.Writable showOps (lines source).length := by
  have hrow : (∀ row ∈ rows showOps target source, ∃ pieces, row.pieces = .ok pieces) ↔
      ∀ index (h : index < (lines source).length), ∃ pieces,
        (row showOps target (hottest target.file) (index + 1) (lines source)[index]).pieces
          = .ok pieces := by
    simp only [rows, List.mem_mapIdx]
    constructor
    · intro h index hindex
      exact h _ ⟨index, hindex, rfl⟩
    · rintro h _ ⟨index, hindex, rfl⟩
      exact h index hindex
  rw [exists_mapM_iff, hrow]
  simp only [exists_pieces_row_iff]
  constructor
  · intro h
    exact ⟨fun index hindex => (h index hindex).1,
      fun hshow index hindex => (h index hindex).2 hshow⟩
  · intro h index hindex
    exact ⟨h.notes index hindex, fun hshow => h.tables hshow index hindex⟩

/-- The annotated source of a target can be written exactly if the source can be read, and the
numbers on its lines are not too long. -/
theorem exists_sourcePieces_iff (sources : Sources) (showOps : Bool) (target : Target) :
    (∃ pieces, sourcePieces sources showOps target = .ok pieces) ↔
      ∃ source, sources target.name = .ok source ∧
        target.file.Writable showOps (lines source).length := by
  unfold sourcePieces
  cases sources target.name with
  | error fault => simp [bind, Except.bind]
  | ok source =>
      simp only [Except.ok.injEq, exists_eq_left', ← exists_rows_iff]
      cases hwritten : (rows showOps target source).mapM Row.pieces with
      | error fault => simp [hwritten, bind, Except.bind]
      | ok written => simp [hwritten, bind, Except.bind, pure, Except.pure]

/-- A page that was built has a row for each target at the top, and below the source of each. -/
theorem exists_parts {sources : Sources} {showOps : Bool} {targets : List Target} {page : String}
    (h : text sources showOps targets = .ok page) :
    ∃ summary bodies,
      targets.mapM summaryPieces = .ok summary ∧
      targets.mapM (sourcePieces sources showOps) = .ok bodies ∧
      page = writePieces (opening ++ summaryHeading ++ summary.flatten
        ++ [.markup "</table>\n"] ++ bodies.flatten ++ [.markup "</body>\n</html>\n"]) := by
  unfold text pieces at h
  cases hsummary : targets.mapM summaryPieces with
  | error fault => simp [hsummary, bind, Except.bind, Except.map] at h
  | ok summary =>
      cases hbodies : targets.mapM (sourcePieces sources showOps) with
      | error fault => simp [hsummary, hbodies, bind, Except.bind, Except.map] at h
      | ok bodies =>
          simp only [hsummary, hbodies, bind, Except.bind, pure, Except.pure, Except.map] at h
          exact ⟨summary, bodies, rfl, rfl, (Except.ok.inj h).symm⟩

/-- **A page can be built exactly if the source of every target can be read and written.** -/
theorem exists_text_iff (sources : Sources) (showOps : Bool) (targets : List Target) :
    (∃ page, text sources showOps targets = .ok page) ↔
      ∀ target ∈ targets, ∃ source, sources target.name = .ok source ∧
        target.file.Writable showOps (lines source).length := by
  obtain ⟨summary, hsummary⟩ :=
    exists_mapM_iff.mpr fun target (_ : target ∈ targets) => exists_summaryPieces target
  simp only [← exists_sourcePieces_iff sources showOps, ← exists_mapM_iff]
  unfold text pieces
  rw [hsummary]
  cases targets.mapM (sourcePieces sources showOps) with
  | error fault => simp [bind, Except.bind, Except.map]
  | ok bodies => simp [bind, Except.bind, Except.map, pure, Except.pure]

end Page

end LineCoverage
