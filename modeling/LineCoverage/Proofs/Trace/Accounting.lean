import LineCoverage.Proofs.Trace.Reading
import Mathlib.Data.List.Forall2
import Mathlib.Data.List.Induction
import Mathlib.Data.List.TakeWhile

/-!
# `LineCoverage.Proofs.Trace.Accounting`: every script is accounted for

A script is closed by its ending, by the next header, by a call, or by the end
of the trace, and it may be taken at any time after that. So a reader has its
scripts in three places: those that were taken, those that are complete, and the
open one. `Ledger.after_accounts` says that these are together one script for
each header that was read, in order, whatever the calls and whatever became of
the files between them.

A `Ledger` is a reader with two things that it does not keep: the scripts taken
from it, and the events so far. An event is a line that was read, with the
answer, or the closing of the open script by a call or at the end of the trace.
`sections` reads the events without the reader: it cuts them at the headers, and
of each section it takes the instruction records up to the first event that ends
it. A line that fails is an event like any other, and gives no instruction.

`sections_concat` says what one more event does to the sections. With it each
event is one step of `Accounts`, the relation between the events and the
scripts, and `Reader.Accounted` carries it over lines and calls.
-/

set_option autoImplicit false

namespace LineCoverage

open Text

namespace Reader

/-! ### Events and sections -/

/-- What happens to a reader. -/
inductive Event where
  /-- A line is read, with the answer. -/
  | line (text : String) (answer : Except Fault Bool)
  /-- The open script is closed, by a call or at the end of the trace. -/
  | closing

namespace Event

/-- The path and the number of the header that is read. -/
def header? : Event → Option (List Char × List Char)
  | .line text _ =>
    match Record.ofLine? text with
    | some (.header path number) => some (path, number)
    | _ => none
  | .closing => none

/-- The instruction record that is read without a fault and belongs to the trace. -/
def columns? : Event → Option InstructionText
  | .line text (.ok true) =>
    match Record.ofLine? text with
    | some (.instruction columns) => some columns
    | _ => none
  | _ => none

/-- Whether a section ends here: at a header, at an ending, or where the open script is closed. -/
def ends : Event → Bool
  | .line text _ =>
    match Record.ofLine? text with
    | some (.header _ _) | some .ending => true
    | _ => false
  | .closing => true

end Event

/-- A header with the instruction records that belong to it. -/
structure Section where
  path : List Char
  number : List Char
  records : List InstructionText
  /-- Whether something ended the section. -/
  ended : Bool

/-- The section of a header before some events. The instruction records up to the first event that
ends it belong to it. -/
def Section.before (path number : List Char) (events : List Event) : Section where
  path := path
  number := number
  records := (events.takeWhile fun event => !event.ends).filterMap Event.columns?
  ended := events.any Event.ends

/-- The sections of some events, one for each header. -/
def sections : List Event → List Section
  | [] => []
  | event :: rest =>
    match event.header? with
    | none => sections rest
    | some (path, number) => .before path number rest :: sections rest

/-- A section with one more event behind it. Nothing is added to a section that was ended. -/
def Section.extend (event : Event) (part : Section) : Section :=
  if part.ended then part
  else if event.ends then { part with ended := true }
  else { part with records := part.records ++ event.columns?.toList }

/-- The section that an event begins. -/
def Event.section? (event : Event) : Option Section :=
  event.header?.map fun (path, number) => .before path number []

/-- There is one section for each header. -/
theorem map_sections (events : List Event) :
    (sections events).map (fun part => (part.path, part.number))
      = events.filterMap Event.header? := by
  induction events with
  | nil => rfl
  | cons event rest ih =>
      rw [sections, List.filterMap_cons]
      cases event.header? with
      | none => exact ih
      | some header => exact congrArg (header :: ·) ih

/-- One more event goes to a section. -/
theorem Section.before_concat (path number : List Char) (events : List Event) (event : Event) :
    Section.before path number (events ++ [event])
      = (Section.before path number events).extend event := by
  unfold Section.before Section.extend
  rw [List.any_append, List.takeWhile_append]
  cases hended : events.any Event.ends with
  | true =>
      -- What ended the section stops its records before the end of the events.
      have hstops : (events.takeWhile fun event => !event.ends).length ≠ events.length := by
        intro hlength
        have hall := List.takeWhile_eq_self_iff.mp
          ((List.takeWhile_prefix _).eq_of_length hlength)
        obtain ⟨last, hmem, hends⟩ := List.any_eq_true.mp hended
        simpa [hends] using hall last hmem
      rw [if_neg hstops]
      rfl
  | false =>
      have hall : (events.takeWhile fun event => !event.ends) = events := by
        refine List.takeWhile_eq_self_iff.mpr fun other hmem => ?_
        simpa using List.any_eq_false.mp hended other hmem
      rw [hall, if_pos rfl]
      cases hends : event.ends with
      | true => simp [hends]
      | false => cases hcolumns : event.columns? <;> simp [hends, hcolumns]

/-- One more event goes to all sections, and may begin a new one. -/
theorem sections_concat (events : List Event) (event : Event) :
    sections (events ++ [event])
      = (sections events).map (·.extend event) ++ event.section?.toList := by
  induction events with
  | nil =>
      show sections [event] = event.section?.toList
      unfold Event.section?
      rw [sections]
      cases event.header? with
      | none => rfl
      | some header => rfl
  | cons first rest ih =>
      rw [List.cons_append, sections, sections, ih]
      cases first.header? with
      | none => rfl
      | some header =>
          obtain ⟨path, number⟩ := header
          simp only [Section.before_concat, List.map_cons, List.cons_append]

/-! ### Sections and scripts -/

/-- The instruction that a record of a script gives. Without relocation it is on a line of the file
of the script. -/
structure Gives (relocating : Bool) (owner : Script) (columns : InstructionText)
    (inst : Instruction) : Prop where
  script : inst.script = owner.name
  pc : ∃ pc, Numeral.read columns.pc = .ok pc ∧ inst.pc = pc
  count : ∃ count, Numeral.read columns.count = .ok count ∧ inst.count = count
  asm : inst.asm = String.ofList columns.asm
  unreachable : inst.unreachable = columns.unreachable
  home : relocating = false →
    ∃ line, Numeral.read columns.line = .ok line ∧ inst.location = ⟨owner.path, line⟩

/-- A script has the same name and the same path with one more instruction. -/
theorem Gives.push {relocating : Bool} {owner : Script} {columns : InstructionText}
    {inst other : Instruction} (h : Gives relocating owner columns inst) :
    Gives relocating (owner.push other) columns inst :=
  ⟨h.script, h.pc, h.count, h.asm, h.unreachable, h.home⟩

/-- The script that a section tells, ended or not: it is named by the header, and has an
instruction for each record, in order. -/
structure Section.Tells (relocating ended : Bool) (part : Section) (script : Script) : Prop where
  ended : part.ended = ended
  name : script.name = String.ofList (part.path ++ ':' :: part.number)
  path : script.path = String.ofList part.path
  instructions : part.records.Forall₂ (Gives relocating script) script.instructions.toList

/-- Some events tell some scripts: the sections that are ended tell the closed ones, and the last
section the open one, if there is one. -/
def Accounts (relocating : Bool) (events : List Event) (closed : List Script)
    (current : Option Script) : Prop :=
  ∃ done last, sections events = done ++ last ∧
    done.Forall₂ (Section.Tells relocating true) closed ∧
    last.Forall₂ (Section.Tells relocating false) current.toList

section Events

variable {relocating : Bool} {events : List Event} {event : Event} {closed : List Script}
  {current : Option Script}

/-- Nothing has happened yet. -/
theorem accounts_nil (relocating : Bool) : Accounts relocating [] [] none :=
  ⟨[], [], rfl, .nil, .nil⟩

/-- No event changes a section that is ended. -/
theorem map_extend_of_ended {done : List Section}
    (h : done.Forall₂ (Section.Tells relocating true) closed) :
    done.map (·.extend event) = done := by
  induction h with
  | nil => rfl
  | cons hpart _ ih => rw [List.map_cons, ih, Section.extend, if_pos hpart.ended]

/-- Where no section ends none begins. -/
theorem Event.section?_of_not_ends (h : event.ends = false) : event.section? = none := by
  cases hheader : event.header? with
  | none => simp [Event.section?, hheader]
  | some header =>
      -- A header ends the section before it.
      have hends : event.ends = true := by
        cases event with
        | closing => rfl
        | line text answer =>
            simp only [Event.header?] at hheader
            split at hheader
            · rename_i path number hrecord
              simp [Event.ends, hrecord]
            · cases hheader
      rw [hends] at h
      cases h

/-- A line that is no header begins no section. -/
theorem Event.section?_of_not_header {text : String} (h : Record.isHeader text = false)
    (answer : Except Fault Bool) : (Event.line text answer).section? = none := by
  unfold Record.isHeader at h
  split at h
  · cases h
  · rename_i hother
    have hheader : (Event.line text answer).header? = none := by simp only [Event.header?]
    rw [Event.section?, hheader]
    rfl

/-- What ends a section closes the open script, and may open another. -/
theorem Accounts.ends (h : Accounts relocating events closed current)
    (hends : event.ends = true) {opened : Option Script}
    (hopened : event.section?.toList.Forall₂ (Section.Tells relocating false) opened.toList) :
    Accounts relocating (events ++ [event]) (closed ++ current.toList) opened := by
  obtain ⟨done, last, hsections, hdone, hlast⟩ := h
  refine ⟨done ++ last.map (·.extend event), event.section?.toList, ?_, ?_, hopened⟩
  · rw [sections_concat, hsections, List.map_append, map_extend_of_ended hdone]
  · refine List.rel_append hdone (List.forall₂_map_left_iff.mpr (hlast.imp ?_))
    intro part script htells
    have hextend : part.extend event = { part with ended := true } := by
      simp [Section.extend, htells.ended, hends]
    rw [hextend]
    exact ⟨rfl, htells.name, htells.path, htells.instructions⟩

/-- Outside a script nothing happens but at a header. -/
theorem Accounts.idle (h : Accounts relocating events closed none)
    (hother : event.section? = none) : Accounts relocating (events ++ [event]) closed none := by
  obtain ⟨done, last, hsections, hdone, hlast⟩ := h
  obtain rfl := List.forall₂_nil_right_iff.mp hlast
  refine ⟨done, [], ?_, hdone, hlast⟩
  rw [sections_concat, hsections, List.append_nil, map_extend_of_ended hdone, hother,
    Option.toList_none, List.append_nil]

/-- In a script nothing happens at a line that neither ends it nor gives an instruction. -/
theorem Accounts.skip (h : Accounts relocating events closed current)
    (hends : event.ends = false) (hcolumns : event.columns? = none) :
    Accounts relocating (events ++ [event]) closed current := by
  obtain ⟨done, last, hsections, hdone, hlast⟩ := h
  refine ⟨done, last.map (·.extend event), ?_, hdone,
    List.forall₂_map_left_iff.mpr (hlast.imp ?_)⟩
  · rw [sections_concat, hsections, List.map_append, map_extend_of_ended hdone,
      Event.section?_of_not_ends hends, Option.toList_none, List.append_nil]
  · intro part script htells
    have hextend : part.extend event = part := by
      simp [Section.extend, hends, hcolumns]
    rwa [hextend]

/-- An instruction goes to the end of the open script. -/
theorem Accounts.push {script : Script} (h : Accounts relocating events closed (some script))
    (hends : event.ends = false) {columns : InstructionText}
    (hcolumns : event.columns? = some columns) {inst : Instruction}
    (hgives : Gives relocating script columns inst) :
    Accounts relocating (events ++ [event]) closed (some (script.push inst)) := by
  obtain ⟨done, last, hsections, hdone, hlast⟩ := h
  refine ⟨done, last.map (·.extend event), ?_, hdone, List.forall₂_map_left_iff.mpr ?_⟩
  · rw [sections_concat, hsections, List.map_append, map_extend_of_ended hdone,
      Event.section?_of_not_ends hends, Option.toList_none, List.append_nil]
  · cases hlast with
    | cons htells hnone =>
        rename_i part rest
        refine .cons ?_ (by obtain rfl := List.forall₂_nil_right_iff.mp hnone; exact .nil)
        have hextend : part.extend event
            = { part with records := part.records ++ [columns] } := by
          simp [Section.extend, htells.ended, hends, hcolumns]
        rw [hextend]
        refine ⟨htells.ended, htells.name, htells.path, ?_⟩
        show (part.records ++ [columns]).Forall₂ (Gives relocating (script.push inst))
          (script.instructions.push inst).toList
        rw [Array.toList_push]
        refine List.rel_append (htells.instructions.imp ?_) (.cons (Gives.push hgives) .nil)
        exact fun _ _ => Gives.push

end Events

/-! ### Lines -/

section Lines

variable {sources : Sources} {relocating : Bool} {taken : List Script} {events : List Event}
  {reader : Reader}

/-- The lines that are read of some lines, up to the first that fails, each with the answer. -/
def linesRead (sources : Sources) (reader : Reader) : List String → List Event
  | [] => []
  | line :: rest =>
    match reader.processLine sources line with
    | (.error fault, _) => [.line line (.error fault)]
    | (.ok consumed, later) => .line line (.ok consumed) :: later.linesRead sources rest

/-- Lines that can all be read are read with the answers that are their results. -/
theorem linesRead_of_ok {later : Reader} {lines : List String} {results : List LineResult}
    (h : reader.processLines sources lines = (.ok results, later)) :
    reader.linesRead sources lines
      = results.map fun result => .line result.line (.ok result.consumed) := by
  induction lines generalizing reader results with
  | nil =>
      rw [processLines_nil] at h
      cases h
      rfl
  | cons line rest ih =>
      obtain ⟨consumed, mid, others, hline, hrest, rfl⟩ := processLines_cons_ok h
      rw [linesRead, hline, List.map_cons, ← ih hrest]

/-- A reader from which the scripts `taken` were taken is accounted for by some events. -/
structure Accounted (relocating : Bool) (taken : List Script) (events : List Event)
    (reader : Reader) : Prop where
  relocates : reader.relocator.isSome = relocating
  scripts : Accounts relocating events (taken ++ reader.completed) reader.current
  count : reader.scriptCount = (taken ++ reader.completed).length

/-- Reading an instruction leaves a reader with relocation or without. -/
theorem isSome_relocator_instruction (sources : Sources) (reader : Reader) (script : Script)
    (columns : InstructionText) :
    (reader.instruction sources script columns).2.relocator.isSome = reader.relocator.isSome := by
  have hlocate : ∀ place,
      (reader.locate sources place).2.relocator.isSome = reader.relocator.isSome := by
    intro place
    cases hrelocator : reader.relocator with
    | none => rw [locate_of_none sources hrelocator, hrelocator]
    | some relocator => rw [locate_of_some hrelocator]; rfl
  unfold instruction
  split
  · rfl
  · rename_i line _
    have hplace := hlocate ⟨script.path, line⟩
    split
    · rename_i later hlater
      rwa [hlater] at hplace
    · rename_i later hlater
      rw [hlater] at hplace
      split <;> exact hplace

/-- An instruction that is read is the one that its record gives. -/
theorem gives_of_instruction {later : Reader} {script : Script} {columns : InstructionText}
    {inst : Instruction} (h : reader.instruction sources script columns = (.ok inst, later)) :
    Gives reader.relocator.isSome script columns inst := by
  obtain ⟨line, pc, count, location, hline, hpc, hcount, hplace, rfl⟩ := instruction_ok_iff.mp h
  refine ⟨rfl, ⟨pc, hpc, rfl⟩, ⟨count, hcount, rfl⟩, rfl, rfl, fun hhome => ⟨line, hline, ?_⟩⟩
  rw [locate_of_none sources (Option.not_isSome_iff_eq_none.mp (by simp [hhome]))] at hplace
  cases hplace
  rfl

/-- An event that ends a section closes the open script, and may open another. -/
theorem Accounted.close (h : Accounted relocating taken events reader) {event : Event}
    (hends : event.ends = true) {opened : Option Script}
    (hopened : event.section?.toList.Forall₂ (Section.Tells relocating false) opened.toList) :
    Accounted relocating taken (events ++ [event]) { reader.close with current := opened } := by
  rw [close_eq]
  refine ⟨h.relocates, ?_, ?_⟩
  · show Accounts relocating (events ++ [event])
      (taken ++ (reader.completed ++ reader.current.toList)) opened
    rw [← List.append_assoc]
    exact h.scripts.ends hends hopened
  · show reader.scriptCount + reader.current.toList.length
      = (taken ++ (reader.completed ++ reader.current.toList)).length
    rw [h.count]
    simp only [List.length_append]
    omega

/-- A line that is read is accounted for. -/
theorem Accounted.step (h : Accounted relocating taken events reader) {line : String}
    {answer : Except Fault Bool} {later : Reader} (hstep : Step sources reader line answer later) :
    Accounted relocating taken (events ++ [.line line answer]) later := by
  cases hstep with
  | header path number record =>
      refine h.close (by simp [Event.ends, record]) ?_
      have hsection : (Event.line line (.ok true)).section? = some (.before path number []) := by
        simp [Event.section?, Event.header?, record]
      rw [hsection]
      exact .cons ⟨rfl, rfl, rfl, .nil⟩ .nil
  | passed other idle =>
      rcases idle with hidle | hrecord
      · have hscripts := h.scripts
        rw [hidle] at hscripts
        refine ⟨h.relocates, ?_, h.count⟩
        rw [hidle]
        exact hscripts.idle (Event.section?_of_not_header other _)
      · refine ⟨h.relocates, h.scripts.skip ?_ rfl, h.count⟩
        simp [Event.ends, hrecord]
  | ending script record opened =>
      have hsection : (Event.line line (.ok true)).section? = none := by
        simp [Event.section?, Event.header?, record]
      have hclose : Accounted relocating taken (events ++ [.line line (.ok true)])
          { reader.close with current := none } :=
        h.close (by simp [Event.ends, record]) (by rw [hsection]; exact .nil)
      rwa [← reader.current_close] at hclose
  | furniture script record opened =>
      refine ⟨h.relocates, h.scripts.skip ?_ ?_, h.count⟩
      · simp [Event.ends, record]
      · simp [Event.columns?, record]
  | instruction columns script inst relocator record opened placed =>
      have hgives := gives_of_instruction placed
      have hsome := reader.isSome_relocator_instruction sources script columns
      rw [placed] at hsome
      have hscripts := h.scripts
      rw [opened] at hscripts
      rw [h.relocates] at hgives hsome
      refine ⟨hsome, hscripts.push ?_ ?_ hgives, h.count⟩
      · simp [Event.ends, record]
      · simp [Event.columns?, record]
  | fault columns script fault relocator record opened failed =>
      have hsome := reader.isSome_relocator_instruction sources script columns
      rw [failed] at hsome
      refine ⟨hsome.trans h.relocates, h.scripts.skip ?_ rfl, h.count⟩
      simp [Event.ends, record]

/-- So are lines that are read in turn, also if one of them fails. -/
theorem Accounted.processLines (h : Accounted relocating taken events reader)
    (sources : Sources) (lines : List String) :
    Accounted relocating taken (events ++ reader.linesRead sources lines)
      (reader.processLines sources lines).2 := by
  induction lines generalizing reader events with
  | nil =>
      rw [linesRead, List.append_nil]
      exact h
  | cons line rest ih =>
      have hline := h.step (reader.step_processLine sources line)
      rw [linesRead, processLines_cons]
      rcases hanswer : reader.processLine sources line with ⟨fault | consumed, later⟩
      · rwa [hanswer] at hline
      · rw [hanswer] at hline
        rw [List.append_cons]
        exact ih hline

end Lines

/-! ### Calls -/

/-- A call on a reader. -/
inductive Call where
  | feed (chunk : String)
  | line (text : String)
  | close
  | take
  | finish

/-- A call, and what there is to be read at the time. -/
structure Visit where
  sources : Sources
  call : Call

/-- The reader after a call, whether the call fails or not. -/
def after (reader : Reader) (visit : Visit) : Reader :=
  match visit.call with
  | .feed chunk => (reader.feed visit.sources chunk).2
  | .line text => (reader.processLine visit.sources text).2
  | .close => reader.close
  | .take => reader.take.2
  | .finish => (reader.finish visit.sources).2

/-- The scripts that a call takes. -/
def taken (reader : Reader) (visit : Visit) : List Script :=
  match visit.call with
  | .take => reader.take.1
  | _ => []

/-- What happens in a call. The end of a trace closes the open script unless its line fails. -/
def events (reader : Reader) (visit : Visit) : List Event :=
  match visit.call with
  | .feed chunk =>
    (reader.withFragment (unfinished (reader.fragment ++ chunk))).linesRead visit.sources
      (completeLines (reader.fragment ++ chunk))
  | .line text => [.line text (reader.processLine visit.sources text).1]
  | .close => [.closing]
  | .take => []
  | .finish =>
    (reader.withFragment "").linesRead visit.sources
        (if reader.fragment = "" then [] else [reader.fragment])
      ++ if (reader.finish visit.sources).1.isOk then [.closing] else []

/-- A reader, with the scripts that were taken from it and the events so far. -/
structure Ledger where
  reader : Reader
  taken : List Script
  events : List Event

namespace Ledger

/-- A new reader, with the relocator that it is given or without relocation. -/
def start (relocator : Option Relocator) : Ledger :=
  ⟨.start relocator, [], []⟩

/-- The ledger after a call. -/
def record (ledger : Ledger) (visit : Visit) : Ledger where
  reader := ledger.reader.after visit
  taken := ledger.taken ++ ledger.reader.taken visit
  events := ledger.events ++ ledger.reader.events visit

/-- The ledger of a new reader after some calls. -/
def after (relocator : Option Relocator) (visits : List Visit) : Ledger :=
  visits.foldl record (start relocator)

/-- All scripts, in the order in which they were opened. -/
def scripts (ledger : Ledger) : List Script :=
  ledger.taken ++ ledger.reader.completed ++ ledger.reader.current.toList

end Ledger

section Calls

variable {relocating : Bool} {taken : List Script} {events : List Event} {reader : Reader}

/-- What is known of the line after the last is no matter of scripts. -/
theorem Accounted.withFragment (h : Accounted relocating taken events reader)
    (fragment : String) : Accounted relocating taken events (reader.withFragment fragment) :=
  ⟨h.relocates, h.scripts, h.count⟩

/-- The complete scripts are as well accounted for when they are taken. -/
theorem Accounted.take (h : Accounted relocating taken events reader) :
    Accounted relocating (taken ++ reader.take.1) events reader.take.2 := by
  refine ⟨h.relocates, ?_, ?_⟩
  · show Accounts relocating events (taken ++ reader.completed ++ []) reader.current
    rw [List.append_nil]
    exact h.scripts
  · show reader.scriptCount = (taken ++ reader.completed ++ []).length
    rw [List.append_nil]
    exact h.count

/-- Closing the open script is accounted for. -/
theorem Accounted.closing (h : Accounted relocating taken events reader) :
    Accounted relocating taken (events ++ [.closing]) reader.close := by
  have hclose : Accounted relocating taken (events ++ [.closing])
      { reader.close with current := none } := h.close rfl .nil
  rwa [← reader.current_close] at hclose

/-- The end of a trace is accounted for, also if the last line fails. -/
theorem Accounted.finish (h : Accounted relocating taken events reader) (sources : Sources) :
    Accounted relocating taken (events ++ reader.events ⟨sources, .finish⟩)
      (reader.finish sources).2 := by
  have hlines := (h.withFragment "").processLines sources
    (if reader.fragment = "" then [] else [reader.fragment])
  unfold Reader.events
  dsimp only
  rcases hread : (reader.withFragment "").processLines sources
    (if reader.fragment = "" then [] else [reader.fragment]) with ⟨fault | results, later⟩
  · rw [finish_error hread]
    rw [hread] at hlines
    simpa [Except.isOk, Except.toBool] using hlines
  · rw [finish_ok hread]
    rw [hread] at hlines
    rw [← List.append_assoc]
    exact hlines.closing

/-- Every call is accounted for. -/
theorem Accounted.after (h : Accounted relocating taken events reader) (visit : Visit) :
    Accounted relocating (taken ++ reader.taken visit) (events ++ reader.events visit)
      (reader.after visit) := by
  obtain ⟨sources, call⟩ := visit
  cases call with
  | feed chunk =>
      show Accounted relocating (taken ++ []) _ (reader.feed sources chunk).2
      rw [List.append_nil, feed_eq]
      exact (h.withFragment _).processLines sources _
  | line text =>
      show Accounted relocating (taken ++ []) _ (reader.processLine sources text).2
      rw [List.append_nil]
      exact h.step (reader.step_processLine sources text)
  | close =>
      show Accounted relocating (taken ++ []) _ reader.close
      rw [List.append_nil]
      exact h.closing
  | take =>
      show Accounted relocating (taken ++ reader.take.1) (events ++ []) reader.take.2
      rw [List.append_nil]
      exact h.take
  | finish =>
      show Accounted relocating (taken ++ []) _ (reader.finish sources).2
      rw [List.append_nil]
      exact h.finish sources

end Calls

/-- Every call of a history is accounted for. -/
theorem Ledger.accounted_after (relocator : Option Relocator) (visits : List Visit) :
    Accounted relocator.isSome (after relocator visits).taken (after relocator visits).events
      (after relocator visits).reader := by
  induction visits using List.reverseRecOn with
  | nil => exact ⟨rfl, accounts_nil _, rfl⟩
  | append_singleton visits visit ih =>
      have hafter : after relocator (visits ++ [visit])
          = (after relocator visits).record visit := by
        simp [after, List.foldl_append]
      rw [hafter]
      exact ih.after visit

/-- Scripts that are told have the names and the paths of the headers. -/
theorem Accounts.map_scripts {relocating : Bool} {events : List Event} {closed : List Script}
    {current : Option Script} (h : Accounts relocating events closed current) :
    (closed ++ current.toList).map (fun script => (script.name, script.path))
      = (events.filterMap Event.header?).map fun (path, number) =>
        (String.ofList (path ++ ':' :: number), String.ofList path) := by
  have hmap : ∀ (ended : Bool) (parts : List Section) (scripts : List Script),
      parts.Forall₂ (Section.Tells relocating ended) scripts →
      scripts.map (fun script => (script.name, script.path))
        = parts.map fun part =>
          (String.ofList (part.path ++ ':' :: part.number), String.ofList part.path) := by
    intro ended parts scripts htells
    induction htells with
    | nil => rfl
    | cons hpart _ ih => rw [List.map_cons, List.map_cons, ih, hpart.name, hpart.path]
  obtain ⟨done, last, hsections, hdone, hlast⟩ := h
  rw [List.map_append, hmap true done closed hdone, hmap false last _ hlast, ← List.map_append,
    ← hsections, ← map_sections, List.map_map]
  rfl

/-- **Every script is accounted for.** After any calls on a new reader, with relocation or without,
whether they fail or not and whatever became of the files between them:

* the scripts that were taken, those that are complete and the open one are together one script
  for each header that was read, in order, with its name and its path;
* each of them has the instructions that the records of its section give, in order, where a section
  goes up to the first event that ends it, and exactly the last section may not be ended yet;
* the reader counts the scripts that are closed, whether they were taken or not;
* it is empty exactly if no header was read.

The events of a chunk that can be read are its results. -/
theorem Ledger.after_accounts (relocator : Option Relocator) (visits : List Visit) :
    let ledger := after relocator visits
    ledger.scripts.map (fun script => (script.name, script.path))
        = (ledger.events.filterMap Event.header?).map (fun (path, number) =>
          (String.ofList (path ++ ':' :: number), String.ofList path)) ∧
    Accounts relocator.isSome ledger.events (ledger.taken ++ ledger.reader.completed)
      ledger.reader.current ∧
    ledger.reader.scriptCount = (ledger.taken ++ ledger.reader.completed).length ∧
    (ledger.reader.isEmpty = true ↔ ledger.events.filterMap Event.header? = []) ∧
    ∀ sources chunk results, (ledger.reader.feed sources chunk).1 = .ok results →
      ledger.reader.events ⟨sources, .feed chunk⟩
        = results.map fun result => .line result.line (.ok result.consumed) := by
  intro ledger
  have haccounted := accounted_after relocator visits
  have hscripts := haccounted.scripts.map_scripts
  refine ⟨hscripts, haccounted.scripts, haccounted.count, ?_, ?_⟩
  · -- The reader has opened as many scripts as there are headers.
    have hlength := congrArg List.length hscripts
    rw [List.length_map, List.length_map, List.length_append, ← haccounted.count] at hlength
    rw [isEmpty_iff, ← List.length_eq_zero_iff, ← hlength]
    rfl
  · intro sources chunk results hfeed
    exact linesRead_of_ok (Prod.ext hfeed rfl)

/-- An instruction behind a script that a call has closed belongs to no script. -/
example :
    (Ledger.after none
      [⟨fun path => .error (.path path .missing),
          .feed "--- SCRIPT a.js:1 ---\n00000:  2  [1] op\n00003"⟩,
        ⟨fun path => .error (.path path .missing), .close⟩,
        ⟨fun path => .error (.path path .missing), .feed ":  2  [1] op\n"⟩,
        ⟨fun path => .error (.path path .missing), .take⟩]).scripts.map
      (fun script => (script.name, script.instructions.size)) = [("a.js:1", 1)] := by
  rfl

end Reader

end LineCoverage
