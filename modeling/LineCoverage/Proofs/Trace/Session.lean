import LineCoverage.Proofs.Trace.Reading

/-!
# `LineCoverage.Proofs.Trace.Session`: a trace at any moment

While a trace arrives, chunks are given to the reader and complete scripts are
taken from it, in any order. A `Session` is a reader with what has come of it so
far: the results of the lines, and the scripts taken.

The invariant is `Session.Reads`: the unfinished line of the reader is that of
the text so far, and the reader with its scripts given back is one reader after
the complete lines of that text. It says nothing of how the text was cut, nor of
when scripts were taken. So at every moment the lines and the unfinished line
are the text (`Reads.intercalate_lines`), and two sessions over the same text
cannot be told apart (`Reads.alike`). `Session.run_lossless` puts this together,
with the one more line that the end of a trace gives.
-/

set_option autoImplicit false

namespace LineCoverage

open Text

namespace Reader

/-- A chunk is given to the reader, or the complete scripts are taken from it. -/
inductive Turn where
  | chunk (text : String)
  | take
  deriving DecidableEq, Repr

/-- What a turn adds to the text. -/
def Turn.text : Turn → String
  | .chunk text => text
  | .take => ""

/-- A reader, with all results so far and all scripts taken from it. -/
structure Session where
  reader : Reader
  results : List LineResult
  taken : List Script

namespace Session

/-- A session with a new reader. -/
def start (relocator : Option Relocator) : Session := ⟨Reader.start relocator, [], []⟩

/-- A session after one more turn. -/
def turn (sources : Sources) (session : Session) : Turn → Except Fault Session
  | .chunk text =>
    match session.reader.feed sources text with
    | (.error fault, _) => .error fault
    | (.ok results, reader) =>
      .ok { session with reader := reader, results := session.results ++ results }
  | .take =>
    .ok { session with
      reader := session.reader.take.2
      taken := session.taken ++ session.reader.take.1 }

/-- A session after some turns, if none of them fails. -/
def run (sources : Sources) (session : Session) : List Turn → Except Fault Session
  | [] => .ok session
  | turn :: rest =>
    match session.turn sources turn with
    | .error fault => .error fault
    | .ok later => later.run sources rest

/-- Two sessions that have given the same results and the same scripts, and whose readers have the
same unfinished line, the same open script and the same count. -/
structure Alike (session other : Session) : Prop where
  results : session.results = other.results
  fragment : session.reader.fragment = other.reader.fragment
  current : session.reader.current = other.reader.current
  scriptCount : session.reader.scriptCount = other.reader.scriptCount
  scripts : session.taken ++ session.reader.completed = other.taken ++ other.reader.completed

/-- A session that has read a text: the complete lines are those that one reader reads, and the
unfinished line is kept. -/
structure Reads (sources : Sources) (relocator : Option Relocator) (text : String)
    (session : Session) : Prop where
  fragment : session.reader.fragment = unfinished text
  read : (Reader.start relocator).processLines sources (completeLines text)
    = (.ok session.results, session.reader.withTaken session.taken)

variable {sources : Sources} {relocator : Option Relocator} {text : String}
  {session other : Session}

/-! ### Turns -/

/-- A new session has read nothing. -/
theorem reads_start (sources : Sources) (relocator : Option Relocator) :
    Reads sources relocator "" (start relocator) where
  fragment := unfinished_empty.symm
  read := by
    rw [completeLines_empty]
    rfl

/-- What a chunk does to the reader is what its lines do to the one reader. -/
theorem Reads.feed (h : Reads sources relocator text session) (chunk : String) :
    (Reader.start relocator).processLines sources (completeLines (text ++ chunk))
      = ((session.reader.feed sources chunk).1.map (session.results ++ ·),
          (session.reader.feed sources chunk).2.withTaken session.taken) := by
  rw [completeLines_append, processLines_append_withTaken h.read (unfinished (text ++ chunk)),
    feed_eq, h.fragment, ← unfinished_append]

/-- A chunk leaves the unfinished line of the text with it. -/
theorem Reads.fragment_feed (h : Reads sources relocator text session) (chunk : String) :
    (session.reader.feed sources chunk).2.fragment = unfinished (text ++ chunk) := by
  rw [feed_eq, fragment_processLines, h.fragment, ← unfinished_append]
  rfl

/-- A turn fails as the one reader does, or the session has read what it adds. -/
theorem Reads.turn (h : Reads sources relocator text session) (turn : Turn) :
    (∃ fault, session.turn sources turn = .error fault ∧
      ((Reader.start relocator).processLines sources (completeLines (text ++ turn.text))).1
        = .error fault) ∨
    ∃ later, session.turn sources turn = .ok later ∧
      Reads sources relocator (text ++ turn.text) later := by
  cases turn with
  | chunk chunk =>
      have hread := h.feed chunk
      have hfragment := h.fragment_feed chunk
      rw [Turn.text]
      rcases hfeed : session.reader.feed sources chunk with ⟨fault | results, reader⟩
      · rw [hfeed] at hread
        refine .inl ⟨fault, ?_, congrArg Prod.fst hread⟩
        simp only [Session.turn, hfeed]
      · rw [hfeed] at hread hfragment
        refine .inr ⟨⟨reader, session.results ++ results, session.taken⟩, ?_, hfragment, hread⟩
        simp only [Session.turn, hfeed]
  | take =>
      -- The scripts have changed hands, and are where they were among all scripts.
      have hgiven : (session.reader.take.2).withTaken (session.taken ++ session.reader.take.1)
          = session.reader.withTaken session.taken := by
        simp [Reader.take, withTaken]
      refine .inr ⟨_, rfl, ?_⟩
      rw [Turn.text, String.append_empty]
      exact ⟨h.fragment, h.read.trans (by rw [← hgiven])⟩

/-- Turns fail as the one reader does, or the session has read all that they add. -/
theorem Reads.run (h : Reads sources relocator text session) (turns : List Turn) :
    (∃ fault, session.run sources turns = .error fault ∧
      ((Reader.start relocator).processLines sources
        (completeLines (text ++ String.join (turns.map Turn.text)))).1 = .error fault) ∨
    ∃ later, session.run sources turns = .ok later ∧
      Reads sources relocator (text ++ String.join (turns.map Turn.text)) later := by
  induction turns generalizing text session with
  | nil =>
      rw [List.map_nil, String.join_nil, String.append_empty]
      exact .inr ⟨session, rfl, h⟩
  | cons turn rest ih =>
      rw [List.map_cons, String.join_cons, ← String.append_assoc]
      rcases h.turn turn with ⟨fault, hturn, hfails⟩ | ⟨later, hturn, hlater⟩
      · refine .inl ⟨fault, by rw [Session.run, hturn], ?_⟩
        -- The text to come has its lines behind the one that fails.
        rw [completeLines_append]
        exact processLines_append_of_error hfails _
      · rw [Session.run, hturn]
        exact ih hlater

/-- A session fails exactly as one reader does on the lines of its text. -/
theorem run_eq_error_iff {turns : List Turn} {fault : Fault} :
    (start relocator).run sources turns = .error fault ↔
      ((Reader.start relocator).processLines sources
        (completeLines (String.join (turns.map Turn.text)))).1 = .error fault := by
  have hrun := (reads_start sources relocator).run turns
  rw [String.empty_append] at hrun
  rcases hrun with ⟨failure, hturns, hfails⟩ | ⟨later, hturns, hreads⟩
  · rw [hturns, hfails, Except.error.injEq, Except.error.injEq]
  · rw [hturns, hreads.read]
    constructor <;> intro h <;> cases h

/-- A session that does not fail has read its text. -/
theorem reads_of_run {turns : List Turn}
    (h : (start relocator).run sources turns = .ok session) :
    Reads sources relocator (String.join (turns.map Turn.text)) session := by
  have hrun := (reads_start sources relocator).run turns
  rw [String.empty_append] at hrun
  rcases hrun with ⟨fault, hturns, -⟩ | ⟨later, hturns, hreads⟩
  · rw [hturns] at h
    cases h
  · rw [hturns] at h
    cases h
    exact hreads

/-! ### What can be seen -/

/-- The lines that were read and the unfinished line are those of the text. -/
theorem Reads.lines_eq (h : Reads sources relocator text session) :
    session.results.map (·.line) ++ [session.reader.fragment] = lines text := by
  rw [map_line_of_processLines h.read, h.fragment, completeLines_append_unfinished]

/-- Joined by line feeds they are the text. -/
theorem Reads.intercalate_lines (h : Reads sources relocator text session) :
    "\n".intercalate (session.results.map (·.line) ++ [session.reader.fragment]) = text := by
  rw [h.lines_eq, ← String.toList_inj, String.toList_intercalate]
  exact Text.intercalate_lines text

/-- Sessions that have read the same text have given the same. -/
theorem Reads.alike (h : Reads sources relocator text session)
    (hother : Reads sources relocator text other) : Alike session other := by
  have hsame := h.read.symm.trans hother.read
  rw [Prod.mk.injEq, Except.ok.injEq, withTaken, withTaken, Reader.mk.injEq] at hsame
  obtain ⟨hresults, -, hcurrent, hscripts, hscriptCount, -⟩ := hsame
  exact ⟨hresults, h.fragment.trans hother.fragment.symm, hcurrent, hscriptCount, hscripts⟩

/-- The end of a trace gives the unfinished line, if there is anything of it. -/
theorem map_line_of_finish {reader later : Reader} {results : List LineResult}
    (h : reader.finish sources = (.ok results, later)) :
    results.map (·.line) = if reader.fragment = "" then [] else [reader.fragment] := by
  rcases hread : (reader.withFragment "").processLines sources
    (if reader.fragment = "" then [] else [reader.fragment]) with ⟨fault | others, last⟩
  · rw [finish_error hread] at h
    cases h
  · rw [finish_ok hread] at h
    cases h
    exact map_line_of_processLines hread

/-- **A reader loses no text at any moment.** For all turns with a new reader:

* if none of them fails, the lines of all results and the unfinished line, joined by line feeds, are
  the text of the chunks, and none of them holds a line feed. The end of the trace, if it does not
  fail, gives the unfinished line and no other, and no line if that is empty;
* all other turns with the same text do the same: they fail with the same fault, or they give the
  same results and the same scripts, and leave the same unfinished line, open script and count. -/
theorem run_lossless (sources : Sources) (relocator : Option Relocator) (turns : List Turn) :
    (∀ session, (start relocator).run sources turns = .ok session →
      "\n".intercalate (session.results.map (·.line) ++ [session.reader.fragment])
        = String.join (turns.map Turn.text) ∧
      (∀ line ∈ session.results.map (·.line) ++ [session.reader.fragment], '\n' ∉ line.toList) ∧
      ∀ now results later, session.reader.finish now = (.ok results, later) →
        results.map (·.line)
          = if session.reader.fragment = "" then [] else [session.reader.fragment]) ∧
    ∀ others : List Turn,
      String.join (others.map Turn.text) = String.join (turns.map Turn.text) →
      (∀ fault, (start relocator).run sources turns = .error fault →
        (start relocator).run sources others = .error fault) ∧
      ∀ session, (start relocator).run sources turns = .ok session →
        ∃ other, (start relocator).run sources others = .ok other ∧ Alike session other := by
  refine ⟨?_, ?_⟩
  · intro session hsession
    have hreads := reads_of_run hsession
    refine ⟨hreads.intercalate_lines, ?_, fun now results later => map_line_of_finish⟩
    intro line hline
    rw [hreads.lines_eq] at hline
    exact not_mem_of_mem_lines hline
  · intro others hjoin
    have hfails : ∀ fault, (start relocator).run sources others = .error fault ↔
        (start relocator).run sources turns = .error fault := by
      intro fault
      rw [run_eq_error_iff, run_eq_error_iff, hjoin]
    refine ⟨fun fault => (hfails fault).mpr, ?_⟩
    intro session hsession
    cases hother : (start relocator).run sources others with
    | error fault =>
        rw [hfails, hsession] at hother
        cases hother
    | ok other =>
        have hreads := reads_of_run hother
        rw [hjoin] at hreads
        exact ⟨other, rfl, (reads_of_run hsession).alike hreads⟩

end Session

end Reader

end LineCoverage
