import LineCoverage.Proofs.Relocation.Origin

/-!
# `LineCoverage.Proofs.Relocation.Transparency`: nobody sees what a relocator keeps

A relocator keeps the directives of every file that it has read, the lines that
they stand on, and its last answer. `Coherent kept` says what all this has to do
with each other: there is one list of directives for each file, `kept`, from
which both tables and the last answer can be told.

`Coherent.directives` and `Coherent.relocate` are the two calls. Each answers
from the list kept for its file, or else from what can be read now
(`consult`), and in the second case the list is kept from then on.

A history is a list of visits, each a call with the files as they are at the
time; between two visits they may change in any way. `coherent_after` finds the
lists that are kept after a history: those of the texts that each file had at
the first visit which could read it. `serve_transparent` concludes that every
call is answered from that text, and that a call which fails leaves no trace.

`Faithful` is the case of files that do not change. There a relocator answers as
if it read the file at every question (`Faithful.relocate`).
-/

set_option autoImplicit false

namespace LineCoverage.Relocator

open Directive

/-! ### What is kept -/

/-- Both tables and the last answer of a relocator agree with one list of directives a file. -/
structure Coherent (kept : String → Option (List Directive)) (relocator : Relocator) : Prop where
  tables : ∀ path, relocator.tables.get? path = (kept path).map List.toArray
  marks : ∀ path, relocator.marks.get? path
    = (kept path).map fun directives => directives.toArray.map (·.mark)
  keys : relocator.marks.keys = relocator.tables.keys
  ascending : ∀ path directives, kept path = some directives → Ascending directives
  last : ∀ query answer, relocator.last = some (query, answer) →
    ∃ directives, kept query.file = some directives ∧ answer = origin directives query

/-- The directives of a file: those kept, or else those that can be read now. -/
def consult (kept : String → Option (List Directive)) (sources : Sources) (path : String) :
    Except Fault (List Directive) :=
  match kept path with
  | some directives => .ok directives
  | none => scanFrom sources path

/-- What is kept after a file was consulted. -/
def keptAfter (kept : String → Option (List Directive)) (sources : Sources) (path : String) :
    String → Option (List Directive) :=
  fun other => if other = path then (consult kept sources path).toOption else kept other

variable {kept : String → Option (List Directive)} {relocator : Relocator} {sources : Sources}

/-- Nothing is kept of what cannot be read. -/
theorem keptAfter_of_error {path : String} {fault : Fault}
    (h : consult kept sources path = .error fault) : keptAfter kept sources path = kept := by
  funext other
  unfold keptAfter
  split
  · rename_i heq
    subst heq
    rw [h]
    unfold consult at h
    split at h
    · cases h
    · rename_i hnone
      rw [hnone]
      rfl
  · rfl

/-- What was kept is not read again. -/
theorem keptAfter_of_kept {path : String} {directives : List Directive}
    (h : kept path = some directives) : keptAfter kept sources path = kept := by
  funext other
  unfold keptAfter
  split
  · rename_i heq
    subst heq
    simp [consult, h, Except.toOption]
  · rfl

/-- A relocator that has read nothing keeps nothing. -/
theorem coherent_fresh : Coherent (fun _ => none) fresh where
  tables _ := rfl
  marks _ := rfl
  keys := rfl
  ascending _ _ h := by cases h
  last _ _ h := by cases h

/-! ### The two calls -/

/-- A file that was not read yet, and can be read now, is kept from then on. -/
private theorem Coherent.keep (h : Coherent kept relocator) {path : String}
    {directives : List Directive} (hnew : kept path = none)
    (hscan : scanFrom sources path = .ok directives) :
    Coherent (keptAfter kept sources path)
      { relocator with
        tables := relocator.tables.set path directives.toArray
        marks := relocator.marks.set path (directives.toArray.map (·.mark)) } := by
  have hself : keptAfter kept sources path path = some directives := by
    simp [keptAfter, consult, hnew, hscan, Except.toOption]
  have hother : ∀ other, other ≠ path → keptAfter kept sources path other = kept other := by
    intro other hne
    simp [keptAfter, hne]
  constructor
  · intro other
    by_cases hne : other = path
    · subst hne
      rw [hself]
      exact Table.get?_alter_self _ _ _
    · rw [hother other hne, ← h.tables other]
      exact Table.get?_alter_of_ne _ _ hne
  · intro other
    by_cases hne : other = path
    · subst hne
      rw [hself]
      exact Table.get?_alter_self _ _ _
    · rw [hother other hne, ← h.marks other]
      exact Table.get?_alter_of_ne _ _ hne
  · simp only [Table.set, Table.keys_alter, h.keys]
  · intro other directives' hkept
    by_cases hne : other = path
    · subst hne
      rw [hself] at hkept
      cases hkept
      exact ascending_of_scanFrom hscan
    · rw [hother other hne] at hkept
      exact h.ascending other directives' hkept
  · intro query answer hlast
    -- The file of the last question was kept before, so it is not this one.
    obtain ⟨directives', hkept, hanswer⟩ := h.last query answer hlast
    have hne : query.file ≠ path := by
      intro heq
      rw [heq, hnew] at hkept
      cases hkept
    exact ⟨directives', by rw [hother query.file hne, hkept], hanswer⟩

/-- The directives of a file are those kept, or else those that can be read now. -/
theorem Coherent.directives (h : Coherent kept relocator) (sources : Sources) (path : String) :
    (relocator.directives sources path).1 = (consult kept sources path).map List.toArray ∧
      Coherent (keptAfter kept sources path) (relocator.directives sources path).2 := by
  cases hkept : kept path with
  | some directives =>
      have hcall : relocator.directives sources path = (.ok directives.toArray, relocator) := by
        unfold Relocator.directives
        rw [h.tables path, hkept]
        rfl
      rw [hcall, keptAfter_of_kept hkept]
      exact ⟨by simp [consult, hkept, Except.map], h⟩
  | none =>
      have hconsult : consult kept sources path = scanFrom sources path := by
        simp [consult, hkept]
      have htable : relocator.tables.get? path = none := by
        rw [h.tables path, hkept]
        rfl
      cases hscan : scanFrom sources path with
      | error fault =>
          have hcall : relocator.directives sources path = (.error fault, relocator) := by
            unfold Relocator.directives
            rw [htable, load_eq, hscan]
            rfl
          rw [hcall, keptAfter_of_error (hconsult.trans hscan), hconsult, hscan]
          exact ⟨rfl, h⟩
      | ok directives =>
          have hkeep := h.keep hkept hscan
          unfold Relocator.directives
          rw [htable, load_eq, hscan, hconsult, hscan]
          exact ⟨rfl, hkeep⟩

/-- There is an answer for every file that is kept. -/
theorem Coherent.answer?_eq (h : Coherent kept relocator) {query : Location}
    {directives : List Directive} (hkept : kept query.file = some directives) :
    relocator.answer? directives.toArray query = some (origin directives query) := by
  unfold answer?
  rw [h.marks query.file, hkept]
  exact relocate?_eq_origin (h.ascending query.file directives hkept) query

/-- The lines of the directives are found wherever the directives are. -/
theorem Coherent.answer?_isSome (h : Coherent kept relocator) {query : Location}
    {table : Array Directive} {later : Relocator}
    (hcall : relocator.directives sources query.file = (.ok table, later)) :
    (later.answer? table query).isSome = true := by
  obtain ⟨hfound, hlater⟩ := h.directives sources query.file
  rw [hcall] at hfound hlater
  cases hconsult : consult kept sources query.file with
  | error fault =>
      rw [hconsult] at hfound
      cases hfound
  | ok directives =>
      rw [hconsult] at hfound
      cases hfound
      have hkept : keptAfter kept sources query.file query.file = some directives := by
        simp [keptAfter, hconsult, Except.toOption]
      rw [hlater.answer?_eq hkept]
      rfl

/-- The answer that is remembered is the last one. -/
private theorem last_of_remembered? {query answer : Location}
    (h : relocator.remembered? query = some answer) : relocator.last = some (query, answer) := by
  unfold remembered? at h
  split at h
  · cases h
  · rename_i question found hlast
    split at h
    · rename_i heq
      rw [hlast, heq, Option.some.inj h]
    · cases h

/-- A line comes from where the directives say that are kept, or else those that can be read
now. -/
theorem Coherent.relocate (h : Coherent kept relocator) (sources : Sources) (query : Location) :
    (relocator.relocate sources query).1
        = (consult kept sources query.file).map (origin · query) ∧
      Coherent (keptAfter kept sources query.file) (relocator.relocate sources query).2 := by
  cases hremembered : relocator.remembered? query with
  | some answer =>
      have hcall : relocator.relocate sources query = (.ok answer, relocator) := by
        unfold Relocator.relocate
        rw [hremembered]
      obtain ⟨directives, hkept, hanswer⟩ :=
        h.last query answer (last_of_remembered? hremembered)
      rw [hcall, keptAfter_of_kept hkept]
      exact ⟨by simp [consult, hkept, Except.map, hanswer], h⟩
  | none =>
      obtain ⟨hfirst, hlater⟩ := h.directives sources query.file
      -- The rest goes by what the file has to say.
      generalize hcall : relocator.directives sources query.file = call at hfirst hlater
      obtain ⟨found, later⟩ := call
      cases hconsult : consult kept sources query.file with
      | error fault =>
          rw [hconsult] at hfirst
          subst hfirst
          unfold Relocator.relocate
          rw [hremembered, hcall]
          exact ⟨rfl, hlater⟩
      | ok directives =>
          rw [hconsult] at hfirst
          subst hfirst
          have hkept : keptAfter kept sources query.file query.file = some directives := by
            simp [keptAfter, hconsult, Except.toOption]
          have hanswer : (later.answer? directives.toArray query).getD query
              = origin directives query := by
            rw [hlater.answer?_eq hkept]
            rfl
          unfold Relocator.relocate
          rw [hremembered, hcall]
          refine ⟨by simp [Except.map, hanswer], { hlater with last := ?_ }⟩
          intro question answer hquestion
          cases hquestion
          exact ⟨directives, hkept, hanswer⟩

/-- Directives that cannot be read leave everything as it was. -/
theorem directives_of_error {path : String} {fault : Fault}
    (h : (relocator.directives sources path).1 = .error fault) :
    (relocator.directives sources path).2 = relocator := by
  unfold Relocator.directives at h ⊢
  split
  · rfl
  · split
    · rfl
    · simp_all

/-- A question without an answer leaves everything as it was. -/
theorem relocate_of_error {query : Location} {fault : Fault}
    (h : (relocator.relocate sources query).1 = .error fault) :
    (relocator.relocate sources query).2 = relocator := by
  unfold Relocator.relocate at h ⊢
  split
  · rfl
  · split
    · rename_i failure later hcall
      have hfails : (relocator.directives sources query.file).1 = .error failure := by rw [hcall]
      have hsame := directives_of_error hfails
      rwa [hcall] at hsame
    · simp_all

/-! ### Histories -/

/-- A call. -/
inductive Call where
  | relocate (query : Location)
  | directives (path : String)

/-- The file that a call is about. -/
def Call.path : Call → String
  | .relocate query => query.file
  | .directives path => path

/-- The answer to a call. -/
inductive Reply where
  | place (location : Location)
  | table (directives : Array Directive)

/-- The answer to a call, by the directives of its file alone. -/
def Call.reply (directives : List Directive) : Call → Reply
  | .relocate query => .place (origin directives query)
  | .directives _ => .table directives.toArray

/-- A call, and what there is to be read at the time. -/
structure Visit where
  sources : Sources
  call : Call

/-- The answer to a call, and the relocator after it. -/
def serve (relocator : Relocator) (visit : Visit) : Except Fault Reply × Relocator :=
  match visit.call with
  | .relocate query =>
    let (found, later) := relocator.relocate visit.sources query
    (found.map .place, later)
  | .directives path =>
    let (found, later) := relocator.directives visit.sources path
    (found.map .table, later)

/-- The relocator after a history. -/
def after (visits : List Visit) : Relocator :=
  visits.foldl (fun relocator visit => (relocator.serve visit).2) fresh

/-- The text of a file at a visit to it, if it can be read and its directives can. -/
def Visit.read? (visit : Visit) (path : String) : Option String :=
  if visit.call.path = path then
    match visit.sources path with
    | .error _ => none
    | .ok text => if (scan text).isOk then some text else none
  else none

/-- The text of a file at the first visit at which it could be read. -/
def firstRead (visits : List Visit) (path : String) : Option String :=
  visits.findSome? (·.read? path)

/-- What a relocator keeps after a history: the directives of the texts read first. -/
def keptBy (visits : List Visit) : String → Option (List Directive) :=
  fun path => (firstRead visits path).bind fun text => (scan text).toOption

/-- A text that counts as read has directives that can be read. -/
private theorem scan_of_read? {visit : Visit} {path text : String}
    (h : visit.read? path = some text) : ∃ directives, scan text = .ok directives := by
  unfold Visit.read? at h
  split at h
  · split at h
    · cases h
    · rename_i found _
      split at h
      · rename_i hok
        cases h
        cases hscan : scan text with
        | error fault => simp [hscan, Except.isOk, Except.toBool] at hok
        | ok directives => exact ⟨directives, rfl⟩
      · cases h
  · cases h

/-- What is read at a visit is what can be read of its file. -/
private theorem bind_read?_self (visit : Visit) :
    ((visit.read? visit.call.path).bind fun text => (scan text).toOption)
      = (scanFrom visit.sources visit.call.path).toOption := by
  unfold Visit.read? scanFrom
  cases visit.sources visit.call.path with
  | error fault => simp [Except.toOption]
  | ok text =>
      cases hscan : scan text with
      | error fault => simp [hscan, Except.toOption, Except.isOk, Except.toBool]
      | ok directives => simp [hscan, Except.toOption, Except.isOk, Except.toBool]

/-- A visit after a history reads a file first if no visit before it did. -/
theorem firstRead_append (visits : List Visit) (visit : Visit) (path : String) :
    firstRead (visits ++ [visit]) path = (firstRead visits path).or (visit.read? path) := by
  simp [firstRead, List.findSome?_append]

/-- A text that was read has directives that can be read. -/
private theorem scan_of_firstRead {visits : List Visit} {path text : String}
    (h : firstRead visits path = some text) : ∃ directives, scan text = .ok directives := by
  obtain ⟨visit, -, hread⟩ := List.exists_of_findSome?_eq_some h
  exact scan_of_read? hread

/-- The directives kept of a file are those of the text that was read first. -/
theorem keptBy_eq_some_iff (visits : List Visit) (path : String)
    (directives : List Directive) :
    keptBy visits path = some directives
      ↔ ∃ text, firstRead visits path = some text ∧ scan text = .ok directives := by
  unfold keptBy
  cases firstRead visits path with
  | none => simp
  | some text =>
      cases hscan : scan text with
      | error fault => simp [hscan, Except.toOption]
      | ok found => simp [hscan, Except.toOption]

/-- A further visit keeps its file, if it is kept by then. -/
theorem keptBy_append (visits : List Visit) (visit : Visit) :
    keptBy (visits ++ [visit])
      = keptAfter (keptBy visits) visit.sources visit.call.path := by
  funext path
  cases hfirst : firstRead visits path with
  | some text =>
      -- The text was read before, so the visit changes nothing.
      obtain ⟨directives, hscan⟩ := scan_of_firstRead hfirst
      have hkept : keptBy visits path = some directives :=
        (keptBy_eq_some_iff visits path directives).mpr ⟨text, hfirst, hscan⟩
      have hlater : keptBy (visits ++ [visit]) path = some directives := by
        rw [keptBy_eq_some_iff, firstRead_append, hfirst]
        exact ⟨text, rfl, hscan⟩
      rw [hlater, keptAfter]
      split
      · rename_i heq
        simp [consult, ← heq, hkept, Except.toOption]
      · exact hkept.symm
  | none =>
      have hkept : keptBy visits path = none := by simp [keptBy, hfirst]
      have hlater : keptBy (visits ++ [visit]) path
          = (visit.read? path).bind fun text => (scan text).toOption := by
        rw [keptBy, firstRead_append, hfirst, Option.none_or]
      rw [hlater, keptAfter]
      split
      · rename_i heq
        subst heq
        rw [bind_read?_self, consult, hkept]
      · rename_i hne
        rw [hkept, Visit.read?, if_neg (Ne.symm hne), Option.bind_none]

/-- A call is answered by the directives that are kept, or else those that can be read now. -/
theorem Coherent.serve (h : Coherent kept relocator) (visit : Visit) :
    (relocator.serve visit).1
        = (consult kept visit.sources visit.call.path).map visit.call.reply ∧
      Coherent (keptAfter kept visit.sources visit.call.path) (relocator.serve visit).2 := by
  obtain ⟨sources, call⟩ := visit
  cases call with
  | relocate query =>
      obtain ⟨hanswer, hlater⟩ := h.relocate sources query
      refine ⟨?_, hlater⟩
      show (relocator.relocate sources query).1.map Reply.place = _
      rw [hanswer]
      show ((consult kept sources query.file).map (origin · query)).map Reply.place
        = (consult kept sources query.file).map (Call.relocate query).reply
      cases consult kept sources query.file <;> rfl
  | directives path =>
      obtain ⟨hanswer, hlater⟩ := h.directives sources path
      refine ⟨?_, hlater⟩
      show (relocator.directives sources path).1.map Reply.table = _
      rw [hanswer]
      show ((consult kept sources path).map List.toArray).map Reply.table
        = (consult kept sources path).map (Call.directives path).reply
      cases consult kept sources path <;> rfl

/-- A call that fails leaves everything as it was. -/
theorem serve_of_error {visit : Visit} {fault : Fault}
    (h : (relocator.serve visit).1 = .error fault) : (relocator.serve visit).2 = relocator := by
  obtain ⟨sources, call⟩ := visit
  cases call with
  | relocate query =>
      replace h : (relocator.relocate sources query).1.map Reply.place = .error fault := h
      cases hanswer : (relocator.relocate sources query).1 with
      | error failure => exact relocate_of_error hanswer
      | ok location =>
          rw [hanswer] at h
          cases h
  | directives path =>
      replace h : (relocator.directives sources path).1.map Reply.table = .error fault := h
      cases hanswer : (relocator.directives sources path).1 with
      | error failure => exact directives_of_error hanswer
      | ok table =>
          rw [hanswer] at h
          cases h

/-- After every history a relocator agrees with the texts read first. -/
theorem coherent_after (visits : List Visit) : Coherent (keptBy visits) (after visits) := by
  induction visits using List.reverseRecOn with
  | nil => exact coherent_fresh
  | append_singleton visits visit ih =>
      have hafter : after (visits ++ [visit]) = ((after visits).serve visit).2 := by
        simp [after, List.foldl_append]
      rw [hafter, keptBy_append]
      exact (ih.serve visit).2

/-- What is consulted at a visit are the directives of the text that was read first, at this
visit or before. -/
theorem consult_keptBy_eq_ok_iff (visits : List Visit) (visit : Visit)
    (directives : List Directive) :
    consult (keptBy visits) visit.sources visit.call.path = .ok directives ↔
      ∃ text, firstRead (visits ++ [visit]) visit.call.path = some text ∧
        scan text = .ok directives := by
  -- It is what is kept after the visit.
  rw [← keptBy_eq_some_iff, keptBy_append, keptAfter, if_pos rfl]
  cases consult (keptBy visits) visit.sources visit.call.path with
  | error fault => simp [Except.toOption]
  | ok found => simp [Except.toOption]

/-- **Nobody sees what a relocator keeps.** After every history, whatever became of the files
between the calls:

* a call is answered exactly by the directives of the text that its file had when it was first
  read, at this call or before;
* a call about a file that was not read yet fails exactly if the file, or its directives, cannot
  be read now;
* a call that fails leaves both tables and the last answer as they were;
* the two tables have the same files, and the lines of the directives are found whenever the
  directives are, so that there is an answer. -/
theorem serve_transparent (visits : List Visit) (visit : Visit) :
    (∀ reply, ((after visits).serve visit).1 = .ok reply ↔
      ∃ text directives, firstRead (visits ++ [visit]) visit.call.path = some text ∧
        scan text = .ok directives ∧ reply = visit.call.reply directives) ∧
    (firstRead visits visit.call.path = none →
      ∀ fault, ((after visits).serve visit).1 = .error fault ↔
        scanFrom visit.sources visit.call.path = .error fault) ∧
    (∀ fault, ((after visits).serve visit).1 = .error fault →
      ((after visits).serve visit).2 = after visits) ∧
    (after visits).marks.keys = (after visits).tables.keys ∧
    ∀ sources query table later,
      (after visits).directives sources query.file = (.ok table, later) →
      (later.answer? table query).isSome = true := by
  have hcoherent := coherent_after visits
  obtain ⟨hanswer, -⟩ := hcoherent.serve visit
  refine ⟨fun reply => ?_, fun hnew fault => ?_, fun fault => serve_of_error, hcoherent.keys, ?_⟩
  · rw [hanswer]
    constructor
    · intro hok
      cases hfound : consult (keptBy visits) visit.sources visit.call.path with
      | error fault =>
          rw [hfound] at hok
          cases hok
      | ok directives =>
          rw [hfound] at hok
          obtain ⟨text, hfirst, hscan⟩ :=
            (consult_keptBy_eq_ok_iff visits visit directives).mp hfound
          exact ⟨text, directives, hfirst, hscan, (Except.ok.inj hok).symm⟩
    · rintro ⟨text, directives, hfirst, hscan, rfl⟩
      rw [(consult_keptBy_eq_ok_iff visits visit directives).mpr ⟨text, hfirst, hscan⟩]
      rfl
  · have hkept : keptBy visits visit.call.path = none := by simp [keptBy, hnew]
    have hconsult : consult (keptBy visits) visit.sources visit.call.path
        = scanFrom visit.sources visit.call.path := by
      simp [consult, hkept]
    rw [hanswer, hconsult]
    cases scanFrom visit.sources visit.call.path <;> simp [Except.map]
  · intro sources query table later hcall
    exact hcoherent.answer?_isSome hcall

/-- A file that is gone is answered for as it was when it was first read. -/
example :
    ((after [⟨fun _ => .ok "//@line 10 \"a.js\"\n", .relocate ⟨"gen.js", 2⟩⟩]).serve
      ⟨fun path => .error (.path path .missing), .relocate ⟨"gen.js", 3⟩⟩).1
      = .ok (.place ⟨"a.js", 11⟩) := by cbv

/-! ### Files that do not change -/

/-- Everything that is kept is what can be read. -/
def Faithful (sources : Sources) (relocator : Relocator) : Prop :=
  ∃ kept, Coherent kept relocator ∧
    ∀ path directives, kept path = some directives → scanFrom sources path = .ok directives

/-- A relocator that has read nothing. -/
theorem faithful_fresh (sources : Sources) : Faithful sources fresh :=
  ⟨fun _ => none, coherent_fresh, fun _ _ h => by cases h⟩

/-- A line comes from where its file says, whether that was read before or not. -/
theorem Faithful.relocate (h : Faithful sources relocator) (query : Location) :
    (relocator.relocate sources query).1 = originFrom sources query ∧
      Faithful sources (relocator.relocate sources query).2 := by
  obtain ⟨kept, hcoherent, hkept⟩ := h
  have hconsult : consult kept sources query.file = scanFrom sources query.file := by
    unfold consult
    split
    · rename_i directives hsome
      exact (hkept query.file directives hsome).symm
    · rfl
  obtain ⟨hanswer, hlater⟩ := hcoherent.relocate sources query
  refine ⟨by rw [hanswer, hconsult, originFrom], _, hlater, ?_⟩
  intro path directives hpath
  unfold keptAfter at hpath
  split at hpath
  · rename_i heq
    rw [hconsult] at hpath
    rw [heq]
    cases hscan : scanFrom sources query.file with
    | error fault =>
        rw [hscan] at hpath
        cases hpath
    | ok found =>
        rw [hscan] at hpath
        rw [Option.some.inj hpath]
  · exact hkept path directives hpath

end LineCoverage.Relocator
