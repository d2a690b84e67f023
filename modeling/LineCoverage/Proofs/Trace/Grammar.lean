import LineCoverage.Proofs.Trace.Atomicity
import LineCoverage.Proofs.Text.Pattern
import LineCoverage.Proofs.Trace.Record

/-!
# `LineCoverage.Proofs.Trace.Grammar`: the table of records

The lines of a trace are of four kinds, each with a pattern (`Record.Kind.language`),
and a table says what a line of each kind does to a reader (`Reader.ByTable`).
The reader knows no table. It tries the kinds in a fixed order, each with a scan
that takes one part after another off the front of the line.

`Kind.recognises_iff` says that each scan finds the texts of its pattern and no
others. The order does not matter, because no text is of two kinds: behind the
dashes and the blanks that it begins with there is a character that tells its
kind (`Kind.landmark_of_mem`). Most patterns begin with a fixed word, whose
landmark can be read off. An instruction begins with a digit of any script. Only
the rule under the headings begins with a run of dashes, as headers and endings
do, and there the landmark is one more dash.

So a text of a kind is read as a record of that kind, whatever is tried before
(`Record.exists_ofText?`), and `Reader.processLine_byTable` puts the table
together from what `Reader` does with each record.
-/

set_option autoImplicit false

namespace LineCoverage

open Text

namespace Record

/-- The kinds of records. -/
inductive Kind where
  | header
  | ending
  | instruction
  | furniture
  deriving DecidableEq, Repr

/-- The kind of a record. -/
def kind : Record → Kind
  | .header _ _ => .header
  | .ending => .ending
  | .instruction _ => .instruction
  | .furniture => .furniture

namespace Kind

/-- A line that names a script: a path on one line, a colon, and a number. -/
def banner (opening : String) : Language Char :=
  word opening * atLeast 1 (· != '\n') * word ":" * atLeast 1 isDigit * word " ---"

/-- The three words over the columns. -/
def heading : Language Char :=
  word "loc" * atLeast 1 isBlank * word "line" * atLeast 1 isBlank * word "op"

/-- The three rules under them. -/
def rule : Language Char :=
  atLeast 1 (· == '-') * atLeast 1 isBlank * atLeast 1 (· == '-') * atLeast 1 isBlank
    * atLeast 1 (· == '-')

/-- The mark of an unreachable operation, which may be missing. -/
def marking : Language Char := 1 + word "x" * atLeast 1 isBlank

/-- The texts of a kind of record. -/
def language : Kind → Language Char
  | .header => banner "--- SCRIPT "
  | .ending => banner "--- END SCRIPT "
  | .instruction =>
    atLeast 5 isDigit * word ":" * atLeast 1 isBlank * atLeast 1 isDigit * atLeast 1 isBlank
      * marking * word "[" * atLeast 0 isBlank * atLeast 1 isDigit * word "]"
      * atLeast 0 isBlank * atLeast 0 (· != '\n')
  | .furniture => heading + rule + word "main:"

/-- Whether a text is recognised as a record of a kind. -/
def recognises : Kind → List Char → Bool
  | .header, text => (banner? "--- SCRIPT " text).isSome
  | .ending, text => (banner? "--- END SCRIPT " text).isSome
  | .instruction, text => (instruction? text).isSome
  | .furniture, text => isFurniture text

/-! ### Recognition -/

/-- A banner is recognised as its path and its number. -/
theorem isSome_banner? {opening : String} {text : List Char} :
    (banner? opening text).isSome = true ↔ text ∈ banner opening := by
  simp only [Option.isSome_iff_exists, Prod.exists, banner?_eq_some_iff]
  constructor
  · rintro ⟨path, number, rfl, hpath, hline, hnumber, hdigits⟩
    have hwords : opening.toList ++ path ++ ':' :: number ++ " ---".toList
        = opening.toList ++ path ++ ":".toList ++ number ++ " ---".toList := by simp
    rw [hwords]
    have hbody : path ∈ atLeast 1 (· != '\n') :=
      mem_atLeast_one.mpr ⟨hpath, forall_ne_break_iff.mpr hline⟩
    exact Language.append_mem_mul (Language.append_mem_mul (Language.append_mem_mul
      (Language.append_mem_mul rfl hbody) rfl) (mem_atLeast_one.mpr ⟨hnumber, hdigits⟩)) rfl
  · rintro ⟨_, ⟨_, ⟨_, ⟨_, rfl, path, hpath, rfl⟩, _, rfl, rfl⟩, number, hnumber, rfl⟩, _, rfl, rfl⟩
    obtain ⟨hpath, hline⟩ := mem_atLeast_one.mp hpath
    obtain ⟨hnumber, hdigits⟩ := mem_atLeast_one.mp hnumber
    exact ⟨path, number, by simp, hpath, forall_ne_break_iff.mp hline, hnumber, hdigits⟩

/-- A mark is an `x` and blanks, and may be missing. -/
theorem mem_marking {mark : List Char} :
    mark ∈ marking ↔ mark = [] ∨ ∃ gap ∈ atLeast 1 isBlank, mark = 'x' :: gap := by
  simp only [marking, Language.mem_add, Language.mem_one, Language.mem_mul, mem_word,
    exists_eq_left]
  exact or_congr_right (exists_congr fun gap => and_congr_right fun _ => eq_comm)

/-- Neither a mark nor the bracket behind it is a blank, so that blanks end there. -/
theorem stops_marking {mark : List Char} (h : mark ∈ marking) (rest : List Char) :
    Stops isBlank (mark ++ '[' :: rest) := by
  rcases mem_marking.mp h with rfl | ⟨gap, -, rfl⟩
  · exact stops_cons (by decide) rest
  · exact stops_cons (by decide) (gap ++ '[' :: rest)

/-- The same for all texts with a mark and a bracket. -/
theorem ends_marking_mul (language : Language Char) :
    Ends isBlank (marking * (word "[" * language)) := by
  rintro _ ⟨mark, hmark, _, ⟨_, rfl, rest, -, rfl⟩, rfl⟩
  exact stops_marking hmark rest

/-- A mark is found in front of a bracket exactly where there is one, or nothing. -/
theorem mark?_eq_some_iff {text rest : List Char} {unreachable : Bool} :
    mark? text = some (unreachable, '[' :: rest) ↔
      ∃ mark ∈ marking, text = mark ++ '[' :: rest ∧ unreachable = !mark.isEmpty := by
  have hx : "x".toList = ['x'] := rfl
  simp only [mem_marking]
  unfold mark?
  cases hfound : literal? "x" text with
  | none =>
      have hno : ∀ rest, text ≠ 'x' :: rest := by
        intro rest htext
        rw [(literal?_eq_some_iff "x" text rest).mpr htext] at hfound
        cases hfound
      constructor
      · intro h
        cases h
        exact ⟨[], .inl rfl, rfl, rfl⟩
      · rintro ⟨mark, rfl | ⟨gap, hgap, rfl⟩, htext, rfl⟩
        · rw [htext]
          rfl
        · exact absurd htext (hno (gap ++ '[' :: rest))
  | some tail =>
      rw [literal?_eq_some_iff, hx, List.singleton_append] at hfound
      simp only [Option.map_eq_some_iff, Prod.mk.injEq, exists_eq_right_right, blanks?_eq_some_iff]
      constructor
      · rintro ⟨⟨gap, htail, hgap, -⟩, rfl⟩
        exact ⟨'x' :: gap, .inr ⟨gap, hgap, rfl⟩, by rw [hfound, htail]; rfl, rfl⟩
      · rintro ⟨mark, rfl | ⟨gap, hgap, rfl⟩, htext, rfl⟩
        · rw [hfound] at htext
          cases htext
        · rw [hfound] at htext
          exact ⟨⟨gap, (List.cons.inj htext).2, hgap, stops_cons (by decide) rest⟩, rfl⟩

/-- A text begins with a mark and a bracket exactly where the mark is found there. -/
theorem mem_marking_mul {language : Language Char} {text : List Char} :
    text ∈ marking * (word "[" * language) ↔
      ∃ unreachable rest, mark? text = some (unreachable, rest) ∧
        rest ∈ word "[" * language := by
  constructor
  · rintro ⟨mark, hmark, _, ⟨_, rfl, rest, hrest, rfl⟩, rfl⟩
    exact ⟨!mark.isEmpty, '[' :: rest, mark?_eq_some_iff.mpr ⟨mark, hmark, rfl, rfl⟩,
      Language.mem_mul.mpr ⟨['['], rfl, rest, hrest, rfl⟩⟩
  · rintro ⟨unreachable, _, hfound, _, rfl, rest, hrest, rfl⟩
    obtain ⟨mark, hmark, rfl, -⟩ := mark?_eq_some_iff.mp hfound
    exact Language.append_mem_mul hmark (Language.mem_mul.mpr ⟨['['], rfl, rest, hrest, rfl⟩)

/-- An instruction is recognised as its columns. -/
theorem isSome_instruction? {text : List Char} :
    (instruction? text).isSome = true ↔ text ∈ instruction.language := by
  have hcolon : ∀ rest, Ends isDigit (word ":" * rest) := ends_word_mul rfl (by decide)
  have hclosing : ∀ rest, Ends isDigit (word "]" * rest) := ends_word_mul rfl (by decide)
  have hdigits : ∀ rest, Ends isBlank (atLeast 1 isDigit * rest) :=
    ends_atLeast_mul fun c => isBlank_of_isDigit
  have hblanks : ∀ rest, Ends isDigit (atLeast 1 isBlank * rest) :=
    ends_atLeast_mul fun c => isDigit_of_isBlank
  -- Scan and pattern take the same parts off the front, one after the other.
  simp only [language, mul_assoc, mem_atLeast_mul (hcolon _), mem_word_mul,
    mem_blanks_mul (hdigits _), mem_atLeast_one_mul (hblanks _),
    mem_blanks_mul (ends_marking_mul _), mem_marking_mul, mem_blanks_zero_mul (hdigits _),
    mem_atLeast_one_mul (hclosing _), mem_blanks_mul_line]
  simp only [instruction?, bind, Option.isSome_bind, Option.any_eq_true,
    Option.filter_eq_some_iff, Prod.exists, decide_eq_true_eq, Option.isSome_ite',
    List.contains_iff_mem]

/-- A dash is no blank. -/
theorem isBlank_of_dash {c : Char} (h : (c == '-') = true) : isBlank c = false := by
  rw [beq_iff_eq.mp h]
  decide

/-- A blank is no dash. -/
theorem not_dash_of_isBlank {c : Char} (h : isBlank c = true) : (c == '-') = false := by
  rw [beq_eq_false_iff_ne]
  rintro rfl
  exact absurd h (by decide)

/-- The headings of the columns are recognised. -/
theorem isHeading_iff {text : List Char} : isHeading text = true ↔ text ∈ heading := by
  have hline : ∀ rest, Ends isBlank (word "line" * rest) := ends_word_mul rfl (by decide)
  have hop : ∀ rest, Ends isBlank (word "op" * rest) := ends_word_mul rfl (by decide)
  rw [← mul_one heading]
  simp only [isHeading, bind, beq_iff_eq, Option.bind_eq_some_iff, heading, mul_assoc,
    mem_word_mul, mem_blanks_mul (hline _), mem_blanks_mul (hop _), Language.mem_one,
    exists_eq_right]

/-- So is the rule under them. -/
theorem isRule_iff {text : List Char} : isRule text = true ↔ text ∈ rule := by
  have hdashes : ∀ rest, Ends isBlank (atLeast 1 (· == '-') * rest) :=
    ends_atLeast_mul fun c => isBlank_of_dash
  have hblanks : ∀ rest, Ends (· == '-') (atLeast 1 isBlank * rest) :=
    ends_atLeast_mul fun c => not_dash_of_isBlank
  rw [← mul_one rule]
  simp only [isRule, bind, beq_iff_eq, Option.bind_eq_some_iff, rule, mul_assoc, Prod.exists,
    mem_atLeast_one_mul (hblanks _), mem_atLeast_one_mul (ends_one _),
    mem_blanks_mul (hdashes _), Language.mem_one, pure, Option.some.injEq]

/-- Furniture is recognised as one of its three forms. -/
theorem isFurniture_iff {text : List Char} :
    isFurniture text = true ↔ text ∈ furniture.language := by
  simp only [isFurniture, Bool.or_eq_true, isHeading_iff, isRule_iff, beq_iff_eq, language,
    Language.mem_add, mem_word]

/-- Each kind of record is recognised by its texts. -/
theorem recognises_iff {kind : Kind} {text : List Char} :
    kind.recognises text = true ↔ text ∈ kind.language := by
  cases kind with
  | header => exact isSome_banner?
  | ending => exact isSome_banner?
  | instruction => exact isSome_instruction?
  | furniture => exact isFurniture_iff

/-! ### Disjointness -/

/-- The first character behind the dashes that a text begins with and the blanks behind them. -/
def landmark (text : List Char) : Option Char := (trimStart (text.dropWhile (· == '-'))).head?

/-- The kind of record that has a landmark. -/
def ofLandmark (c : Char) : Kind :=
  if isDigit c then .instruction
  else if c = 'S' then .header
  else if c = 'E' then .ending
  else .furniture

/-- A text that begins with neither a dash nor a blank begins with its landmark. -/
theorem landmark_cons {c : Char} (hdash : (c == '-') = false) (hblank : isBlank c = false)
    (rest : List Char) : landmark (c :: rest) = some c := by
  simp [landmark, trimStart, hdash, hblank]

/-- The landmark of an instruction is its first digit. -/
theorem landmark_of_instruction {text : List Char} (h : text ∈ instruction.language) :
    ∃ c, isDigit c = true ∧ landmark text = some c := by
  simp only [language, mul_assoc] at h
  obtain ⟨pc, hpc, rest, -, rfl⟩ := h
  cases pc with
  | nil => exact absurd hpc.1 (by decide)
  | cons c digits =>
      have hdigit : isDigit c = true := hpc.2 c List.mem_cons_self
      have hdash : (c == '-') = false := by
        rw [beq_eq_false_iff_ne]
        rintro rfl
        exact absurd hdigit (by decide)
      exact ⟨c, hdigit, landmark_cons hdash (isBlank_of_isDigit hdigit) (digits ++ rest)⟩

/-- The landmark of the rule under the headings is the first dash of its second part. -/
theorem landmark_of_rule {text : List Char} (h : text ∈ rule) : landmark text = some '-' := by
  simp only [rule, mul_assoc] at h
  obtain ⟨dashes, hdashes, _, ⟨gap, hgap, _, ⟨others, hothers, rest, -, rfl⟩, rfl⟩, rfl⟩ := h
  show (trimStart ((dashes ++ (gap ++ (others ++ rest))).dropWhile (· == '-'))).head? = some '-'
  rw [dropWhile_append_of_stops hdashes.2 (stops_append hgap (fun c => not_dash_of_isBlank) _),
    trimStart_append ⟨Nat.zero_le _, hgap.2⟩ (stops_append hothers (fun c => isBlank_of_dash) _)]
  cases others with
  | nil => exact absurd hothers.1 (by decide)
  | cons c others =>
      rw [List.cons_append, List.head?_cons, beq_iff_eq.mp (hothers.2 c List.mem_cons_self)]

/-- A record has the landmark of its kind. -/
theorem landmark_of_mem {kind : Kind} {text : List Char} (h : text ∈ kind.language) :
    (landmark text).map ofLandmark = some kind := by
  cases kind with
  | header =>
      simp only [language, banner, mul_assoc] at h
      obtain ⟨rest, rfl⟩ := exists_of_mem_word_mul h
      rfl
  | ending =>
      simp only [language, banner, mul_assoc] at h
      obtain ⟨rest, rfl⟩ := exists_of_mem_word_mul h
      rfl
  | instruction =>
      obtain ⟨c, hdigit, hlandmark⟩ := landmark_of_instruction h
      rw [hlandmark, Option.map_some, ofLandmark, if_pos hdigit]
  | furniture =>
      simp only [language, Language.mem_add, heading, mul_assoc, mem_word] at h
      rcases h with (hheading | hrule) | rfl
      · obtain ⟨rest, rfl⟩ := exists_of_mem_word_mul hheading
        rfl
      · rw [landmark_of_rule hrule]
        rfl
      · rfl

/-- No text is a record of two kinds. -/
theorem eq_of_mem_language {kind other : Kind} {text : List Char} (h : text ∈ kind.language)
    (hother : text ∈ other.language) : kind = other := by
  have hsame := (landmark_of_mem h).symm.trans (landmark_of_mem hother)
  exact Option.some.inj hsame

end Kind

/-! ### Reading a text as a record -/

/-- What is read as a record is a text of its kind. -/
theorem mem_language_of_ofText? {text : List Char} {record : Record}
    (h : ofText? text = some record) : text ∈ record.kind.language := by
  rw [← Kind.recognises_iff]
  cases found_of_ofText? h with
  | header found => exact Option.isSome_iff_exists.mpr ⟨_, found⟩
  | ending found => exact found
  | instruction found => exact Option.isSome_iff_exists.mpr ⟨_, found⟩
  | furniture found => exact found

/-- What is recognised as a record of some kind is read as a record. -/
theorem isSome_ofText? {kind : Kind} {text : List Char} (h : kind.recognises text = true) :
    (ofText? text).isSome = true := by
  unfold ofText?
  split
  · rfl
  · rename_i hheader
    split
    · rfl
    · rename_i hending
      split
      · rfl
      · rename_i hinstruction
        split
        · rfl
        · rename_i hfurniture
          -- No kind is left that the text could have been recognised as.
          cases kind with
          | header => simp [Kind.recognises, hheader] at h
          | ending => exact absurd h hending
          | instruction => simp [Kind.recognises, hinstruction] at h
          | furniture => exact absurd h hfurniture

/-- A text of a kind is read as a record of this kind, whatever kinds are tried before it. -/
theorem exists_ofText? {kind : Kind} {text : List Char} (h : text ∈ kind.language) :
    ∃ record, ofText? text = some record ∧ record.kind = kind := by
  obtain ⟨record, hrecord⟩ :=
    Option.isSome_iff_exists.mp (isSome_ofText? (Kind.recognises_iff.mpr h))
  exact ⟨record, hrecord, Kind.eq_of_mem_language (mem_language_of_ofText? hrecord) h⟩

/-- Columns that are found in a text are read from it, whatever kinds are tried before it. -/
theorem ofText?_of_instruction? {text : List Char} {columns : InstructionText}
    (h : instruction? text = some columns) : ofText? text = some (.instruction columns) := by
  have hmem : text ∈ Kind.instruction.language := by
    rw [← Kind.isSome_instruction?, h]
    rfl
  obtain ⟨record, hrecord, hkind⟩ := exists_ofText? hmem
  cases record with
  | instruction found =>
      have hsame := (instruction?_of_ofText? hrecord).symm.trans h
      rw [hrecord, Option.some.inj hsame]
  | header | ending | furniture => cases hkind

end Record

namespace Reader

variable {sources : Sources} {reader : Reader} {line : String}

/-- What the table of records says of a line: what is answered, and what becomes of the reader. -/
structure ByTable (sources : Sources) (reader : Reader) (line : String)
    (answer : Except Fault Bool) (later : Reader) : Prop where
  /-- A header is consumed in every state. It completes the open script, and opens an empty one. -/
  header : Record.lineText line ∈ Record.Kind.header.language →
    answer = .ok true ∧ ∃ path number,
      Record.lineText line
        = "--- SCRIPT ".toList ++ path ++ ':' :: number ++ " ---".toList ∧
      later = { reader with
        current := some ⟨String.ofList (path ++ ':' :: number), String.ofList path, #[]⟩
        completed := reader.completed ++ reader.current.toList
        scriptCount := reader.scriptCount + reader.current.toList.length }
  /-- An ending completes the open script, whatever path and number it names. -/
  ending : Record.lineText line ∈ Record.Kind.ending.language → ∀ script,
    reader.current = some script → answer = .ok true ∧ later = { reader with
      current := none
      completed := reader.completed ++ [script]
      scriptCount := reader.scriptCount + 1 }
  /-- An instruction gives the open script one more, if it does not fail. -/
  instruction : Record.lineText line ∈ Record.Kind.instruction.language → ∀ script,
    reader.current = some script → ∃ relocator,
      (∃ inst, answer = .ok true ∧
        later = { reader with current := some (script.push inst), relocator := relocator }) ∨
      ∃ fault, answer = .error fault ∧ later = { reader with relocator := relocator } ∧
        reader.Cause sources line fault
  /-- Furniture changes nothing. -/
  furniture : Record.lineText line ∈ Record.Kind.furniture.language →
    reader.current.isSome = true → answer = .ok true ∧ later = reader
  /-- Outside a script nothing but a header is consumed. -/
  idle : reader.current = none → Record.lineText line ∉ Record.Kind.header.language →
    answer = .ok false ∧ later = reader
  /-- No other line is consumed. -/
  other : (∀ kind : Record.Kind, Record.lineText line ∉ kind.language) →
    answer = .ok false ∧ later = reader
  /-- The unfinished line stays what it was. -/
  fragment : later.fragment = reader.fragment

/-- A line of a kind is read as a record of that kind. -/
theorem exists_ofLine? {kind : Record.Kind} (h : Record.lineText line ∈ kind.language) :
    ∃ record, Record.ofLine? line = some record ∧ record.kind = kind :=
  Record.exists_ofText? h

/-- A reader does with a line what the table says. -/
theorem byTable (sources : Sources) (reader : Reader) (line : String) :
    ByTable sources reader line (reader.processLine sources line).1
      (reader.processLine sources line).2 where
  header := by
    intro hmem
    obtain ⟨record, hrecord, hkind⟩ := exists_ofLine? hmem
    cases record with
    | header path number =>
        rw [processLine_of_header reader hrecord, close_eq]
        have hbanner := Record.banner?_of_ofText? hrecord
        exact ⟨rfl, path, number, (Record.banner?_eq_some_iff.mp hbanner).1, rfl⟩
    | ending | instruction | furniture => cases hkind
  ending := by
    intro hmem script hopen
    obtain ⟨record, hrecord, hkind⟩ := exists_ofLine? hmem
    cases record with
    | ending =>
        rw [processLine_of_ending hrecord hopen, close_eq, hopen]
        exact ⟨rfl, rfl⟩
    | header | instruction | furniture => cases hkind
  instruction := by
    intro hmem script hopen
    obtain ⟨record, hrecord, hkind⟩ := exists_ofLine? hmem
    cases record with
    | instruction columns =>
        obtain ⟨relocator, hlater⟩ := reader.exists_instruction sources script columns
        refine ⟨relocator, ?_⟩
        rcases hinst : reader.instruction sources script columns with ⟨fault | inst, later⟩
        · rw [hinst] at hlater
          have hfails := processLine_of_instruction_error hrecord hopen hinst
          rw [hfails]
          exact .inr ⟨fault, rfl, hlater, cause_of_processLine_error hfails⟩
        · rw [hinst] at hlater
          subst hlater
          rw [processLine_of_instruction_ok hrecord hopen hinst]
          exact .inl ⟨inst, rfl, rfl⟩
    | header | ending | furniture => cases hkind
  furniture := by
    intro hmem hsome
    obtain ⟨script, hopen⟩ := Option.isSome_iff_exists.mp hsome
    obtain ⟨record, hrecord, hkind⟩ := exists_ofLine? hmem
    cases record with
    | furniture =>
        rw [processLine_of_furniture hrecord hopen]
        exact ⟨rfl, rfl⟩
    | header | ending | instruction => cases hkind
  idle := by
    intro hidle hmem
    have hother : Record.isHeader line = false := by
      cases hheader : Record.isHeader line with
      | false => rfl
      | true =>
          obtain ⟨path, number, hrecord⟩ := Record.exists_header hheader
          exact absurd (Record.mem_language_of_ofText? hrecord) hmem
    rw [processLine_of_idle reader line hother hidle]
    exact ⟨rfl, rfl⟩
  other := by
    intro hmem
    cases hrecord : Record.ofLine? line with
    | none =>
        rw [processLine_of_none reader hrecord]
        exact ⟨rfl, rfl⟩
    | some record => exact absurd (Record.mem_language_of_ofText? hrecord) (hmem record.kind)
  fragment := fragment_processLine sources reader line

/-- **A line is read by the table of records, whatever the order of its tests.**

* A text is recognised as a record of a kind exactly if it has the pattern of the kind;
* no text is recognised as records of two kinds;
* for every reader and every line, without the carriage returns at its end: what is answered, and
  what becomes of the reader, is what the table says. -/
theorem processLine_byTable (sources : Sources) (reader : Reader) (line : String) :
    (∀ (kind : Record.Kind) text, kind.recognises text = true ↔ text ∈ kind.language) ∧
    (∀ (kind other : Record.Kind) text,
      kind.recognises text = true → other.recognises text = true → kind = other) ∧
    ByTable sources reader line (reader.processLine sources line).1
      (reader.processLine sources line).2 := by
  refine ⟨fun kind text => Record.Kind.recognises_iff, ?_, byTable sources reader line⟩
  intro kind other text hkind hother
  rw [Record.Kind.recognises_iff] at hkind hother
  exact Record.Kind.eq_of_mem_language hkind hother

end Reader

end LineCoverage
