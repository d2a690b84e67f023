import LineCoverage.Proofs.Trace.Reading

/-!
# `LineCoverage.Proofs.Trace.Atomicity`: a record counts as a whole or not at all

Reading an instruction can fail at four points: at each of its three numbers and
where its line is placed, and by then the relocator may have read a file. What
the relocator keeps is no part of a trace, and all the rest is as it was
(`Reader.Alike`, `alike_of_processLine_error`). `cause_of_processLine_error` says
what it takes for a line to fail.

A chunk and the end of a trace change the unfinished line before they read
anything. `Reader.faults_atomic` says what a fault leaves in each case: after a
chunk the reader has read the lines before the one that fails and nothing else,
and after the end of a trace the last script is still open, so that the end can
be read again.
-/

set_option autoImplicit false

namespace LineCoverage

open Text

/-- A line whose origin is not known has a file whose directives cannot be read. -/
theorem Relocator.load_of_relocate_error {sources : Sources} {relocator : Relocator}
    {query : Location} {fault : Fault}
    (h : (relocator.relocate sources query).1 = .error fault) :
    load sources query.file = .error fault := by
  have hdirectives : ∀ later,
      relocator.directives sources query.file = (.error fault, later) →
        load sources query.file = .error fault := by
    intro later hcall
    unfold directives at hcall
    split at hcall
    · cases hcall
    · split at hcall
      · rename_i failure hload
        cases hcall
        exact hload
      · cases hcall
  unfold relocate at h
  split at h
  · cases h
  · split at h
    · rename_i failure later hcall
      cases h
      exact hdirectives later hcall
    · cases h

namespace Reader

variable {sources : Sources} {reader later : Reader}

/-- Two readers with the same unfinished line, the same scripts and the same count. What their
relocators keep may differ. -/
structure Alike (reader other : Reader) : Prop where
  fragment : reader.fragment = other.fragment
  current : reader.current = other.current
  completed : reader.completed = other.completed
  scriptCount : reader.scriptCount = other.scriptCount

/-- What it takes for a line to fail: it is an instruction of an open script, and one of its
numbers is too long, or the directives of the file of the script cannot be read. -/
def Cause (sources : Sources) (reader : Reader) (line : String) (fault : Fault) : Prop :=
  ∃ columns script, Record.ofLine? line = some (.instruction columns) ∧
    reader.current = some script ∧
    ((∃ digits ∈ [columns.line, columns.pc, columns.count],
        maxDigits < digits.length ∧ fault = .numberTooLong digits.length) ∨
      reader.relocator.isSome = true ∧ Relocator.load sources script.path = .error fault)

/-- A line that is not placed has a file whose directives cannot be read. -/
theorem load_of_locate_error {place : Location} {fault : Fault}
    (h : reader.locate sources place = (.error fault, later)) :
    reader.relocator.isSome = true ∧ Relocator.load sources place.file = .error fault := by
  cases hrelocator : reader.relocator with
  | none =>
      rw [locate_of_none sources hrelocator] at h
      cases h
  | some relocator =>
      rw [locate_of_some hrelocator] at h
      exact ⟨rfl, Relocator.load_of_relocate_error (congrArg Prod.fst h)⟩

/-- An instruction that is not read has a number that is too long, or its line is not placed. -/
theorem cause_of_instruction_error {script : Script} {columns : InstructionText} {fault : Fault}
    (h : reader.instruction sources script columns = (.error fault, later)) :
    (∃ digits ∈ [columns.line, columns.pc, columns.count],
        maxDigits < digits.length ∧ fault = .numberTooLong digits.length) ∨
      reader.relocator.isSome = true ∧ Relocator.load sources script.path = .error fault := by
  have hnumber : ∀ digits ∈ [columns.line, columns.pc, columns.count],
      Numeral.read digits = .error fault →
      ∃ digits ∈ [columns.line, columns.pc, columns.count],
        maxDigits < digits.length ∧ fault = .numberTooLong digits.length :=
    fun digits hmem hread => ⟨digits, hmem, (Numeral.read_eq_error_iff digits fault).mp hread⟩
  unfold instruction at h
  split at h
  · rename_i failure hline
    cases h
    exact .inl (hnumber columns.line (by simp) hline)
  · split at h
    · rename_i failure mid hplace
      cases h
      exact .inr (load_of_locate_error hplace)
    · split at h
      · rename_i failure _ hpc
        cases h
        exact .inl (hnumber columns.pc (by simp) ‹_›)
      · rename_i failure hcount
        cases h
        exact .inl (hnumber columns.count (by simp) ‹_›)
      · cases h

/-- A line that fails changes nothing but what the relocator keeps. -/
theorem alike_of_processLine_error {line : String} {fault : Fault}
    (h : reader.processLine sources line = (.error fault, later)) : later.Alike reader := by
  have hstep := reader.step_processLine sources line
  rw [h] at hstep
  cases hstep with
  | fault columns script _ relocator record opened failed => exact ⟨rfl, rfl, rfl, rfl⟩

/-- A line fails for one of these causes. -/
theorem cause_of_processLine_error {line : String} {fault : Fault}
    (h : reader.processLine sources line = (.error fault, later)) :
    reader.Cause sources line fault := by
  have hstep := reader.step_processLine sources line
  rw [h] at hstep
  cases hstep with
  | fault columns script _ relocator record opened failed =>
      exact ⟨columns, script, record, opened, cause_of_instruction_error failed⟩

/-- Where no line is unfinished, the end of a trace closes the open script and does nothing else. -/
theorem finish_of_no_fragment (sources : Sources) (h : reader.fragment = "") :
    reader.finish sources = (.ok [], reader.close) := by
  have hsame : reader.withFragment "" = reader := by
    rw [← h]
    rfl
  have hread : (reader.withFragment "").processLines sources
      (if reader.fragment = "" then [] else [reader.fragment]) = (.ok [], reader) := by
    rw [hsame, if_pos h, processLines_nil]
  exact finish_ok hread

/-- The end of a trace fails at its unfinished line. -/
theorem processLine_of_finish_error {fault : Fault}
    (h : reader.finish sources = (.error fault, later)) :
    (reader.withFragment "").processLine sources reader.fragment = (.error fault, later) := by
  rcases hread : (reader.withFragment "").processLines sources
    (if reader.fragment = "" then [] else [reader.fragment]) with ⟨failure | results, last⟩
  · rw [finish_error hread] at h
    cases h
    split at hread
    · rw [processLines_nil] at hread
      cases hread
    · rcases processLines_cons_error hread with hline | ⟨consumed, mid, -, hrest⟩
      · exact hline
      · rw [processLines_nil] at hrest
        cases hrest
  · rw [finish_ok hread] at h
    cases h

/-- **A record counts as a whole or not at all.** For every reader:

* a line that fails leaves the unfinished line, the scripts and their count as they were. It is an
  instruction of the open script with a number that is too long, or of a file whose directives
  cannot be read;
* a chunk that fails does so at one of its complete lines. The lines before that one were read, the
  line itself and those behind it changed nothing, and the unfinished line is that of the chunk;
* the end of a trace that fails leaves no unfinished line, and the open script as it was. The end
  of the trace after that does not fail, gives no line, and completes that script. -/
theorem faults_atomic (sources : Sources) (reader : Reader) :
    (∀ line fault later, reader.processLine sources line = (.error fault, later) →
      later.Alike reader ∧ reader.Cause sources line fault) ∧
    (∀ chunk fault later, reader.feed sources chunk = (.error fault, later) →
      ∃ before line after results mid,
        completeLines (reader.fragment ++ chunk) = before ++ line :: after ∧
        (reader.withFragment (unfinished (reader.fragment ++ chunk))).processLines sources before
          = (.ok results, mid) ∧
        mid.processLine sources line = (.error fault, later) ∧ later.Alike mid ∧
        later.fragment = unfinished (reader.fragment ++ chunk)) ∧
    ∀ fault later, reader.finish sources = (.error fault, later) →
      later.Alike { reader with fragment := "" } ∧
      ∃ script, reader.current = some script ∧
        ∀ sources, ∃ last, later.finish sources = (.ok [], last) ∧
          last.Alike
            { reader with
              fragment := ""
              current := none
              completed := reader.completed ++ [script]
              scriptCount := reader.scriptCount + 1 } := by
  refine ⟨fun line fault later h => ?_, fun chunk fault later h => ?_, fun fault later h => ?_⟩
  · exact ⟨alike_of_processLine_error h, cause_of_processLine_error h⟩
  · rw [feed_eq] at h
    obtain ⟨before, line, after, results, mid, hlines, hbefore, hline⟩ :=
      exists_of_processLines_error h
    have hfragment := fragment_processLines sources
      (reader.withFragment (unfinished (reader.fragment ++ chunk)))
      (completeLines (reader.fragment ++ chunk))
    rw [h] at hfragment
    exact ⟨before, line, after, results, mid, hlines, hbefore, hline,
      alike_of_processLine_error hline, hfragment⟩
  · have hline := processLine_of_finish_error h
    have halike := alike_of_processLine_error hline
    obtain ⟨columns, script, -, hopen, -⟩ := cause_of_processLine_error hline
    refine ⟨halike, script, hopen, fun sources => ?_⟩
    refine ⟨later.close, finish_of_no_fragment sources halike.fragment, ?_⟩
    -- The script that is still open is the one that was open before.
    have hcurrent : later.current = some script := halike.current.trans hopen
    rw [close_eq, hcurrent]
    exact ⟨halike.fragment, rfl, congrArg (· ++ [script]) halike.completed,
      congrArg (· + 1) halike.scriptCount⟩

end Reader

end LineCoverage
