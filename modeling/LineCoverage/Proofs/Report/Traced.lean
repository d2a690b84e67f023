import LineCoverage.Proofs.Coverage.Selection
import LineCoverage.Proofs.Coverage.WellFormed
import LineCoverage.Proofs.Report.Page
import LineCoverage.Proofs.Trace.Accounting

/-!
# `LineCoverage.Proofs.Report.Traced`: a page on a trace

A coverage may be put together from any instructions, and then a page on it may
fail at a number that is too long to be written. Of a trace this is not so. Its
numbers were read, and what is short enough to be read is short enough to be
written (`Numeral.lt_firstTooLong_of_read`). So a page on the targets in a trace
can be built exactly if their sources can be read: `exists_text_iff_of_ingest`.

Every instruction in the coverage of a trace was pushed on a script for a record
of the trace. That is known from the account of all scripts
(`Reader.Accounted.processLines`), and that a coverage holds no other instruction
from `Coverage.kept_ofScripts`.
-/

set_option autoImplicit false

namespace LineCoverage

open Text

/-- Neither the place of an instruction in its script nor its count is too long to be written. -/
structure Instruction.Short (inst : Instruction) : Prop where
  pc : inst.pc.natAbs < Numeral.firstTooLong
  count : inst.count.natAbs < Numeral.firstTooLong

/-- A file with such instructions only can be written, whatever is shown of it. -/
theorem SourceFile.writable_of_short {file : SourceFile}
    (h : ∀ number, ∀ inst ∈ file.insts number, inst.Short) (showOps : Bool) (length : Nat) :
    file.Writable showOps length where
  notes _ _ _ inst hinst := (h _ inst hinst).count
  tables _ _ _ inst hinst := ⟨(h _ inst hinst).pc, (h _ inst hinst).count⟩

namespace Reader

/-- What stands on the right side of a relation has what the relation gives it. -/
private theorem forall_of_forall₂ {α β : Type} {relation : α → β → Prop} {has : β → Prop}
    {lefts : List α} {rights : List β} (h : lefts.Forall₂ relation rights)
    (hhas : ∀ left right, relation left right → has right) : ∀ right ∈ rights, has right := by
  induction h with
  | nil => exact fun _ hmem => absurd hmem List.not_mem_nil
  | cons hfirst _ ih => exact List.forall_mem_cons.mpr ⟨hhas _ _ hfirst, ih⟩

/-- What a record gives was read from it, and so it is short. -/
theorem Gives.short {relocating : Bool} {owner : Script} {columns : InstructionText}
    {inst : Instruction} (h : Gives relocating owner columns inst) : inst.Short where
  pc := by
    obtain ⟨pc, hread, hpc⟩ := h.pc
    rw [hpc]
    exact Numeral.lt_firstTooLong_of_read hread
  count := by
    obtain ⟨count, hread, hcount⟩ := h.count
    rw [hcount]
    exact Numeral.lt_firstTooLong_of_read hread

/-- So is every instruction of a script that is closed. -/
theorem Accounts.short {relocating : Bool} {events : List Event} {closed : List Script}
    {current : Option Script} (h : Accounts relocating events closed current) :
    ∀ inst ∈ instructionsOf closed, inst.Short := by
  obtain ⟨done, last, -, hdone, -⟩ := h
  intro inst hinst
  obtain ⟨script, hscript, hinst⟩ := List.mem_flatMap.mp hinst
  have htold : ∀ script ∈ closed, ∀ inst ∈ script.instructions.toList, inst.Short :=
    forall_of_forall₂ hdone fun _ _ htells =>
      forall_of_forall₂ htells.instructions fun _ _ => Gives.short
  exact htold script hscript inst hinst

/-- So is every instruction that was read by the end of a trace. -/
theorem short_of_processLines {sources : Sources} {relocator : Option Relocator} {later : Reader}
    {lines : List String} {results : List LineResult}
    (h : (start relocator).processLines sources lines = (.ok results, later)) :
    ∀ inst ∈ instructionsOf later.close.completed, inst.Short := by
  have hstart : Accounted relocator.isSome [] [] (start relocator) :=
    ⟨rfl, accounts_nil relocator.isSome, rfl⟩
  have hlines := hstart.processLines sources lines
  rw [h] at hlines
  exact hlines.closing.scripts.short

end Reader

namespace Coverage

variable {coverage : Coverage}

/-- A target is a file of the coverage. -/
theorem UpToDate.file?_of_mem_targets (h : UpToDate coverage) {wanted : List String}
    {target : Target} (hmem : target ∈ (coverage.resolveTargets wanted).1.1) :
    coverage.file? target.name = some target.file := by
  cases wanted with
  | nil => exact (mem_resolveTargets_nil.mp hmem).1
  | cons name rest => exact (h.accounted_namedTargets (name :: rest)).own target hmem

/-- A coverage that is built of scripts is up to date. -/
theorem upToDate_ofScripts (scripts : List Script) : UpToDate (ofScripts scripts) := by
  induction scripts using List.reverseRecOn with
  | nil => exact upToDate_empty
  | append_singleton scripts last ih =>
      have hlast : ofScripts (scripts ++ [last]) = (ofScripts scripts).addScript last := by
        simp [ofScripts, List.foldl_append]
      rw [hlast]
      exact ih.addScript last

/-- What is on a line comes from the scripts. -/
theorem mem_instructionsOf {scripts : List Script} {name : String} {file : SourceFile}
    (hfile : (ofScripts scripts).file? name = some file) {number : Int} {inst : Instruction}
    (hinst : inst ∈ file.insts number) : inst ∈ instructionsOf scripts := by
  unfold SourceFile.insts at hinst
  cases hline : file.lines.get? number with
  | none =>
      rw [hline] at hinst
      cases hinst
  | some line =>
      rw [hline] at hinst
      obtain ⟨site, hsite⟩ := Table.mem_values_iff.mp (show inst ∈ line.insts.values from hinst)
      exact (kept_ofScripts hfile hline hsite).1

end Coverage

namespace Page

/-- **A page on a trace can be built exactly if the sources can be read.** No number in the coverage
of a trace is too long to be written, so nothing else can be in the way. -/
theorem exists_text_iff_of_ingest {traced : Sources} {relocator : Option Relocator}
    {chunks : List String} {coverage : Coverage}
    (h : (ingest traced relocator chunks).outcome = .ok (some coverage)) (sources : Sources)
    (showOps : Bool) (wanted : List String) :
    (∃ page, text sources showOps (coverage.resolveTargets wanted).1.1 = .ok page) ↔
      ∀ target ∈ (coverage.resolveTargets wanted).1.1,
        ∃ source, sources target.name = .ok source := by
  obtain ⟨results, reader, hread, -, hfound⟩ :=
    (isBatch_join traced relocator chunks).exists_of_ok h
  split at hfound
  · obtain rfl := Option.some.inj hfound
    have hshort := Reader.short_of_processLines hread
    have hwritable : ∀ target ∈ ((Coverage.ofScripts reader.close.completed).resolveTargets
        wanted).1.1, ∀ length, target.file.Writable showOps length := by
      intro target hmem length
      have hfile := (Coverage.upToDate_ofScripts _).file?_of_mem_targets hmem
      exact SourceFile.writable_of_short
        (fun number inst hinst => hshort inst (Coverage.mem_instructionsOf hfile hinst)) showOps
        length
    rw [exists_text_iff]
    refine forall₂_congr fun target hmem => ?_
    simp only [hwritable target hmem, and_true]
  · cases hfound

end Page

end LineCoverage
