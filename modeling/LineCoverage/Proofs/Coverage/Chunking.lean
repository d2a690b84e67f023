import LineCoverage.Coverage.Ingest
import LineCoverage.Proofs.Trace.Reading
import LineCoverage.Trace.Chunk

/-!
# `LineCoverage.Proofs.Coverage.Chunking`: the chunks of a trace do not matter

A trace is read chunk by chunk, its complete scripts are taken from the reader
after every chunk, and its last line may have no end. `IsBatch` says what comes
of the trace when none of this happens: the lines of the whole text are read one
after another by one reader, the open script is closed at the end, and the
coverage is that of all scripts in their order.

`ingest_isBatch` proves that this is what comes of every list of chunks with the
text as their concatenation, and of the text in chunks of any one size. Where a
line fails, all of them fail alike; only how much was passed on before may
depend on the chunks, since nothing of the chunk with the failing line is.

The invariant is `Intake.Follows`: after some chunks, the reader with the
scripts given back to it that were taken (`Reader.withTaken`) is the one reader
after the complete lines of the text so far.
-/

set_option autoImplicit false

namespace LineCoverage

open Text

/-- What comes of a text whose lines are read one after another by one reader. -/
structure IsBatch (sources : Sources) (relocator : Option Relocator) (text : String)
    (ingested : Ingested) : Prop where
  /-- If every line can be read, exactly the lines that were not consumed are passed on, and
  there is the coverage of all scripts, the last one closed at the end, if there is a header. -/
  complete : ∀ results reader,
    (Reader.start relocator).processLines sources (linesOf text) = (.ok results, reader) →
    ingested = ⟨Intake.unconsumed results,
      .ok (if (linesOf text).any Record.isHeader
        then some (Coverage.ofScripts reader.close.completed) else none)⟩
  /-- If a line cannot be read, that is the outcome, and of the lines before it that were not
  consumed some first ones are passed on. -/
  fault : ∀ fault reader,
    (Reader.start relocator).processLines sources (linesOf text) = (.error fault, reader) →
    ingested.outcome = .error fault ∧
      ∃ results, Reader.FailsAt sources (.start relocator) (linesOf text) results fault ∧
        ingested.passed <+: Intake.unconsumed results

/-- A trace that was ingested without a fault: all its lines were read. -/
theorem IsBatch.exists_of_ok {sources : Sources} {relocator : Option Relocator} {text : String}
    {ingested : Ingested} {found : Option Coverage} (h : IsBatch sources relocator text ingested)
    (hok : ingested.outcome = .ok found) :
    ∃ results reader,
      (Reader.start relocator).processLines sources (linesOf text) = (.ok results, reader) ∧
      ingested.passed = Intake.unconsumed results ∧
      found = if (linesOf text).any Record.isHeader
        then some (Coverage.ofScripts reader.close.completed) else none := by
  rcases hread : (Reader.start relocator).processLines sources (linesOf text)
    with ⟨fault | results, reader⟩
  · rw [(h.fault fault reader hread).1] at hok
    cases hok
  · have hcomplete := h.complete results reader hread
    refine ⟨results, reader, rfl, by rw [hcomplete], ?_⟩
    rw [hcomplete] at hok
    exact (Except.ok.inj hok).symm

/-- A text has one outcome. -/
theorem IsBatch.outcome_eq {sources : Sources} {relocator : Option Relocator} {text : String}
    {left right : Ingested} (hleft : IsBatch sources relocator text left)
    (hright : IsBatch sources relocator text right) : left.outcome = right.outcome := by
  rcases hread : (Reader.start relocator).processLines sources (linesOf text)
    with ⟨fault | results, reader⟩
  · rw [(hleft.fault fault reader hread).1, (hright.fault fault reader hread).1]
  · rw [hleft.complete results reader hread, hright.complete results reader hread]

namespace Intake

variable {sources : Sources} {relocator : Option Relocator}

/-- The lines passed on of two lists of results. -/
theorem unconsumed_append (left right : List LineResult) :
    unconsumed (left ++ right) = unconsumed left ++ unconsumed right := by
  simp [unconsumed]

/-- After the chunks that make up a text: `results` are the results of its complete lines, and
`taken` the scripts that were taken from the reader and added to the coverage. -/
structure Follows (sources : Sources) (relocator : Option Relocator) (text : String)
    (intake : Intake) (results : List LineResult) (taken : List Script) : Prop where
  fragment : intake.reader.fragment = unfinished text
  drained : intake.reader.completed = []
  read : (Reader.start relocator).processLines sources (completeLines text)
    = (.ok results, intake.reader.withTaken taken)
  coverage : intake.coverage = Coverage.ofScripts taken
  passed : intake.passed.toList = unconsumed results

/-- Before the first chunk. -/
theorem follows_start (sources : Sources) (relocator : Option Relocator) :
    Follows sources relocator "" (start relocator) [] [] where
  fragment := unfinished_empty.symm
  drained := rfl
  read := by rw [completeLines_empty]; rfl
  coverage := rfl
  passed := rfl

/-- Lines that fail after some chunks fail behind the complete lines. -/
theorem Follows.failsAt {text : String} {intake : Intake} {results : List LineResult}
    {taken : List Script} (h : Follows sources relocator text intake results taken)
    {fragment : String} {lines : List String} {fault : Fault} {later : Reader}
    (hfails : (intake.reader.withFragment fragment).processLines sources lines
      = (.error fault, later)) :
    ∃ others, Reader.FailsAt sources (.start relocator) (completeLines text ++ lines)
      (results ++ others) fault := by
  -- What is known of the line after them does not matter.
  have hread : (intake.reader.withTaken taken).processLines sources lines
      = (.error fault, later.withTaken taken) := by
    have hlines := Reader.processLines_withTaken sources taken
      (intake.reader.withFragment fragment) lines
    rwa [hfails] at hlines
  obtain ⟨others, hothers⟩ := Reader.failsAt_of_processLines hread
  exact ⟨others, hothers.prepend h.read⟩

/-- Lines that can be read after some chunks: the scripts that they complete are taken too. -/
theorem Follows.read_append {text : String} {intake : Intake} {results : List LineResult}
    {taken : List Script} (h : Follows sources relocator text intake results taken)
    {fragment : String} {lines : List String} {others : List LineResult} {later : Reader}
    (hread : (intake.reader.withFragment fragment).processLines sources lines
      = (.ok others, later)) :
    (Reader.start relocator).processLines sources (completeLines text ++ lines)
      = (.ok (results ++ others), later.withTaken taken) := by
  rw [Reader.processLines_append_withTaken h.read fragment, hread]
  rfl

/-- A further chunk is followed, or fails as the one reader does. -/
theorem Follows.feed {text : String} {intake : Intake} {results : List LineResult}
    {taken : List Script} (h : Follows sources relocator text intake results taken)
    (chunk : String) :
    (∃ fault others, intake.absorb (intake.reader.feed sources chunk) = .error fault ∧
      Reader.FailsAt sources (.start relocator) (completeLines (text ++ chunk))
        (results ++ others) fault) ∨
    ∃ later others scripts, intake.absorb (intake.reader.feed sources chunk) = .ok later ∧
      Follows sources relocator (text ++ chunk) later (results ++ others)
        (taken ++ scripts) := by
  -- The reader goes on behind the unfinished line, which the chunk continues.
  have hfeed : intake.reader.feed sources chunk
      = (intake.reader.withFragment (unfinished (text ++ chunk))).processLines sources
          (completeLines (unfinished text ++ chunk)) := by
    rw [Reader.feed_eq, h.fragment, ← unfinished_append]
  have hcomplete := completeLines_append text chunk
  have hfragment := Reader.fragment_processLines sources
    (intake.reader.withFragment (unfinished (text ++ chunk)))
    (completeLines (unfinished text ++ chunk))
  rw [hfeed]
  rcases hread : (intake.reader.withFragment (unfinished (text ++ chunk))).processLines sources
    (completeLines (unfinished text ++ chunk)) with ⟨fault | others, later⟩
  · left
    obtain ⟨others, hothers⟩ := h.failsAt hread
    refine ⟨fault, others, rfl, ?_⟩
    rw [hcomplete]
    exact hothers
  · right
    rw [hread] at hfragment
    refine ⟨_, others, later.completed, rfl, ?_⟩
    exact
      { fragment := hfragment
        drained := rfl
        read := by
          rw [hcomplete, h.read_append hread]
          simp [Reader.withTaken]
        coverage := by
          rw [Coverage.ofScripts, List.foldl_append, ← Coverage.ofScripts, ← h.coverage]
        passed := by
          rw [unconsumed_append, ← h.passed]
          simp }

/-- A fault somewhere in the lines of a text, after lines of which some were passed on. -/
theorem isBatch_of_failsAt {text : String} {passed : List String} {results : List LineResult}
    {fault : Fault}
    (hfails : Reader.FailsAt sources (.start relocator) (linesOf text) results fault)
    (hpassed : passed <+: unconsumed results) :
    IsBatch sources relocator text ⟨passed, .error fault⟩ where
  complete others reader hread := by
    have heq := hfails.processLines_eq
    rw [hread] at heq
    cases heq
  fault failure reader hread := by
    have heq := hfails.processLines_eq
    rw [hread] at heq
    cases heq
    exact ⟨rfl, results, hfails, hpassed⟩

/-- What was passed on before a failing line is the beginning of what would be. -/
theorem Follows.passed_prefix {text : String} {intake : Intake} {results : List LineResult}
    {taken : List Script} (h : Follows sources relocator text intake results taken)
    (others : List LineResult) :
    intake.passed.toList <+: unconsumed (results ++ others) := by
  rw [h.passed, unconsumed_append]
  exact List.prefix_append _ _

/-- The end of the trace after some chunks. -/
theorem Follows.finish {text : String} {intake : Intake} {results : List LineResult}
    {taken : List Script} (h : Follows sources relocator text intake results taken) :
    IsBatch sources relocator text (intake.finish sources) := by
  have hlines : linesOf text = completeLines text ++
      if intake.reader.fragment = "" then [] else [intake.reader.fragment] := by
    rw [linesOf_eq, h.fragment]
  rcases hread : (intake.reader.withFragment "").processLines sources
    (if intake.reader.fragment = "" then [] else [intake.reader.fragment])
    with ⟨fault | others, later⟩
  · have hfinish : intake.finish sources = ⟨intake.passed.toList, .error fault⟩ := by
      rw [Intake.finish, Reader.finish_error hread]
      rfl
    obtain ⟨others, hothers⟩ := h.failsAt hread
    rw [← hlines] at hothers
    rw [hfinish]
    exact isBatch_of_failsAt hothers (h.passed_prefix others)
  · have hbatch := h.read_append hread
    rw [← hlines] at hbatch
    have hfinish : intake.finish sources
        = ⟨(intake.passed ++ (unconsumed others).toArray).toList,
            .ok (if later.close.isEmpty then none
              else some (later.close.completed.foldl Coverage.addScript intake.coverage))⟩ := by
      rw [Intake.finish, Reader.finish_ok hread]
      rfl
    -- Closing the last script is the same with the others given back.
    have hclose : (later.withTaken taken).close.completed = taken ++ later.close.completed := by
      rw [Reader.close_withTaken]
      rfl
    have hempty : later.close.isEmpty = !(linesOf text).any Record.isHeader := by
      rw [← Reader.isEmpty_close_of_processLines hbatch, Reader.close_withTaken]
      rfl
    constructor
    · intro results' reader hok
      rw [hbatch] at hok
      cases hok
      rw [hfinish, hempty, hclose, unconsumed_append, Coverage.ofScripts, List.foldl_append,
        ← Coverage.ofScripts, ← h.coverage, ← h.passed]
      cases (linesOf text).any Record.isHeader <;> simp
    · intro fault reader hfault
      rw [hbatch] at hfault
      cases hfault

/-- The chunks that are left, and the end of the trace. -/
theorem Follows.run {text : String} {intake : Intake} {results : List LineResult}
    {taken : List Script} (h : Follows sources relocator text intake results taken)
    (chunks : List String) :
    IsBatch sources relocator (text ++ String.join chunks) (intake.run sources none chunks) := by
  induction chunks generalizing text intake results taken with
  | nil =>
      rw [String.join_nil, String.append_empty]
      exact h.finish
  | cons chunk rest ih =>
      rw [String.join_cons, ← String.append_assoc]
      rcases h.feed chunk with ⟨fault, others, habsorb, hfails⟩ |
        ⟨later, others, scripts, habsorb, hlater⟩
      · have hrun : intake.run sources none (chunk :: rest)
            = ⟨intake.passed.toList, .error fault⟩ := by
          rw [Intake.run, habsorb]
        rw [hrun]
        obtain ⟨more, hmore⟩ := exists_linesOf_append (text ++ chunk) (String.join rest)
        refine isBatch_of_failsAt ?_ (h.passed_prefix others)
        rw [hmore]
        exact hfails.append more
      · have hrun : intake.run sources none (chunk :: rest) = later.run sources none rest := by
          rw [Intake.run, habsorb]
        rw [hrun]
        exact ih hlater

end Intake

/-- The chunks of any size but zero make up the text. -/
theorem join_chunks (size : Int) (text : String) (h : size ≠ 0) :
    String.join (chunks size text) = text := by
  rw [← String.toList_inj, String.toList_join, chunks, List.flatMap_map]
  simp only [String.toList_ofList, List.flatMap_id']
  exact flatten_chunksOfSize size text.toList h

/-- What comes of a list of chunks is what comes of the lines of their text. -/
theorem isBatch_join (sources : Sources) (relocator : Option Relocator) (chunks : List String) :
    IsBatch sources relocator (String.join chunks) (ingest sources relocator chunks) := by
  have hrun := (Intake.follows_start sources relocator).run chunks
  rwa [String.empty_append] at hrun

/-- The coverage of the scripts that a reader has read, the open one closed; none without any. -/
def Reader.coverage (reader : Reader) : Option Coverage :=
  if reader.close.isEmpty then none else some (Coverage.ofScripts reader.close.completed)

/-- A trace can be ingested exactly if its lines can be read, and what comes of it can be told from
the results and the reader after the last line. -/
theorem ingest_eq_ok_iff {sources : Sources} {relocator : Option Relocator}
    {chunks passed : List String} {found : Option Coverage} :
    ingest sources relocator chunks = ⟨passed, .ok found⟩ ↔
      ∃ results reader,
        (Reader.start relocator).processLines sources (linesOf (String.join chunks))
          = (.ok results, reader) ∧
        passed = Intake.unconsumed results ∧ found = reader.coverage := by
  have hbatch := isBatch_join sources relocator chunks
  have hcoverage : ∀ results reader,
      (Reader.start relocator).processLines sources (linesOf (String.join chunks))
        = (.ok results, reader) →
      ingest sources relocator chunks = ⟨Intake.unconsumed results, .ok reader.coverage⟩ := by
    intro results reader hread
    rw [hbatch.complete results reader hread, Reader.coverage,
      Reader.isEmpty_close_of_processLines hread]
    cases (linesOf (String.join chunks)).any Record.isHeader <;> rfl
  constructor
  · intro h
    have hok : (ingest sources relocator chunks).outcome = .ok found := by rw [h]
    obtain ⟨results, reader, hread, -, -⟩ := hbatch.exists_of_ok hok
    rw [hcoverage results reader hread] at h
    cases h
    exact ⟨results, reader, hread, rfl, rfl⟩
  · rintro ⟨results, reader, hread, rfl, rfl⟩
    exact hcoverage results reader hread

/-- **The chunks of a trace do not matter.** Whatever the chunks that make up a text, what comes
of them is what comes of its lines read one after another by one reader. So it does of the text
in chunks of any size but zero, and any two lists of chunks of the same text have the same
outcome. -/
theorem ingest_isBatch (sources : Sources) (relocator : Option Relocator) (text : String) :
    (∀ chunks, String.join chunks = text →
      IsBatch sources relocator text (ingest sources relocator chunks)) ∧
    (∀ size, size ≠ 0 →
      IsBatch sources relocator text (ingest sources relocator (chunks size text))) ∧
    ∀ chunks others, String.join chunks = text → String.join others = text →
      (ingest sources relocator chunks).outcome
        = (ingest sources relocator others).outcome := by
  have hall : ∀ chunks, String.join chunks = text →
      IsBatch sources relocator text (ingest sources relocator chunks) := by
    intro chunks hjoin
    rw [← hjoin]
    exact isBatch_join sources relocator chunks
  refine ⟨hall, ?_, ?_⟩
  · intro size hsize
    exact hall _ (join_chunks size text hsize)
  · intro chunks others hchunks hothers
    exact (hall chunks hchunks).outcome_eq (hall others hothers)

end LineCoverage
