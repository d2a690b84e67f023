import LineCoverage.Proofs.Relocation.Comment
import LineCoverage.Proofs.Relocation.Transparency

/-!
# `LineCoverage.Proofs.Relocation.Stepping`: line by line through a source

A reader who follows the directives by hand goes through a text from the top. The
first line is a line of the text's own file. After a line with a directive comes
the line that it names, and after any other line the next line of the same file.
`Stepwise` says this of a function that tells where each line comes from, and it
leaves no choice: two texts that agree down to a line have the same answer for
the line after it (`Stepwise.eq_of_take_eq`).

`stepwise_origin` proves that the last directive before a line gives the reader's
answer, and `relocate_stepwise` that a relocator does, whatever it was asked
before.
-/

set_option autoImplicit false

namespace LineCoverage

open Text

namespace Directive

/-! ### The last directive before a line -/

/-- No directive lies before the first line. -/
theorem closest?_of_le {directives : List Directive} {line : Int}
    (h : ∀ directive ∈ directives, line ≤ directive.mark) : closest? directives line = none := by
  have hnone : (directives.filter fun directive => decide ((directive.mark : Int) < line)) = [] :=
    List.filter_eq_nil_iff.mpr fun directive hmem => by simpa using h directive hmem
  rw [closest?, hnone]
  rfl

/-- No two directives stand on one line. -/
theorem Ascending.eq_of_mark_eq {directives : List Directive} (h : Ascending directives)
    {first second : Directive} (hfirst : first ∈ directives) (hsecond : second ∈ directives)
    (hmark : first.mark = second.mark) : first = second := by
  have hnodup : (directives.map mark).Nodup :=
    List.pairwise_map.mpr (h.imp fun hlt => Nat.ne_of_lt hlt)
  exact List.inj_on_of_nodup_map hnodup hfirst hsecond hmark

/-- The line after a directive is the first that it counts for. -/
theorem Ascending.closest?_mark {directives : List Directive} (h : Ascending directives)
    {directive : Directive} (hmem : directive ∈ directives) :
    closest? directives (directive.mark + 1) = some directive := by
  have hlater : ∀ other ∈ directives, directive.mark ≤ other.mark →
      (other.mark : Int) < directive.mark + 1 → other = directive := by
    intro other hother hle hlt
    exact h.eq_of_mark_eq hother hmem (by omega)
  refine List.argmax_eq_some_iff.mpr ⟨?_, ?_, ?_⟩
  · exact List.mem_filter.mpr ⟨hmem, by simp⟩
  · intro other hother
    have hlt := (List.mem_filter.mp hother).2
    simp only [decide_eq_true_eq] at hlt
    omega
  · intro other hother hle
    obtain ⟨hother, hlt⟩ := List.mem_filter.mp hother
    rw [hlater other hother hle (of_decide_eq_true hlt)]

/-- A line without a directive leaves things as they are. -/
theorem closest?_succ {directives : List Directive} {line : Int}
    (h : ∀ directive ∈ directives, (directive.mark : Int) ≠ line) :
    closest? directives (line + 1) = closest? directives line := by
  unfold closest?
  congr 1
  refine List.filter_congr fun directive hmem => ?_
  have hne := h directive hmem
  simp only [decide_eq_decide]
  omega

/-! ### One line after another -/

/-- Where the lines of a file with this text come from, told line by line. -/
structure Stepwise (text path : String) (place : Int → Location) : Prop where
  /-- The first line, and what is thought to lie above it, is where it is. -/
  start : ∀ line ≤ 1, place line = ⟨path, line⟩
  /-- After a line with a directive comes the line that it names. -/
  directive : ∀ (index : Nat) (line : String), (lines text)[index]? = some line →
    ∀ comment : Comment, comment.Leads line.toList →
      place (index + 2) = ⟨String.ofList comment.file, Numeral.positional comment.number⟩
  /-- After any other line, also one below the text, comes the next line of the same file. -/
  plain : ∀ index : Nat,
    (∀ line, (lines text)[index]? = some line →
      ∀ comment : Comment, comment.Valid → comment.text ≠ line.toList) →
    place (index + 2) = { place (index + 1) with line := (place (index + 1)).line + 1 }

/-- Where a line comes from depends on the lines above it alone. -/
theorem Stepwise.eq_of_take_eq {text other path : String} {place place' : Int → Location}
    (h : Stepwise text path place) (hother : Stepwise other path place') {line : Int}
    (hlines : (lines text).take (line - 1).toNat = (lines other).take (line - 1).toNat) :
    place line = place' line := by
  rcases le_or_gt line 1 with hline | hline
  · rw [h.start line hline, hother.start line hline]
  · obtain ⟨count, rfl⟩ : ∃ count : Nat, line = count + 1 := ⟨(line - 1).toNat, by omega⟩
    clear hline
    have hcount : ((count : Int) + 1 - 1).toNat = count := by omega
    rw [hcount] at hlines
    induction count with
    | zero => rw [h.start _ (by omega), hother.start _ (by omega)]
    | succ index ih =>
        -- The two texts agree on the last line above, and on those before it.
        have hlast : (lines text)[index]? = (lines other)[index]? := by
          have htake := congrArg (·[index]?) hlines
          simpa [List.getElem?_take] using htake
        have hbefore : (lines text).take index = (lines other).take index := by
          have htake := congrArg (List.take index) hlines
          simpa [List.take_take] using htake
        have hplace := ih hbefore (by omega)
        have htwo : ((index + 1 : Nat) : Int) + 1 = index + 2 := by omega
        rw [htwo]
        by_cases hcomment : ∃ line, (lines text)[index]? = some line ∧
            ∃ comment : Comment, comment.Valid ∧ comment.text = line.toList
        · obtain ⟨line, hline, comment, hvalid, htext⟩ := hcomment
          obtain ⟨first, hfirst⟩ := hvalid.exists_leads
          rw [htext] at hfirst
          rw [h.directive index line hline first hfirst,
            hother.directive index line (hlast ▸ hline) first hfirst]
        · push Not at hcomment
          rw [h.plain index hcomment, hother.plain index (hlast ▸ hcomment), hplace]

/-- The last directive before each line leads through a text line by line. -/
theorem stepwise_origin {text : String} {directives : List Directive}
    (h : scan text = .ok directives) (path : String) :
    Stepwise text path fun line => origin directives ⟨path, line⟩ := by
  have hmem := mem_scan_iff h
  constructor
  · intro line hline
    have hnone : closest? directives line = none := by
      refine closest?_of_le fun directive hdirective => ?_
      obtain ⟨index, _, _, comment, _, rfl⟩ := (hmem directive).mp hdirective
      simp only [Comment.directive]
      omega
    simp only [origin, hnone]
  · intro index line hline comment hleads
    have hdirective : comment.directive (index + 1) ∈ directives :=
      (hmem _).mpr ⟨index, line, hline, comment, hleads, rfl⟩
    have hclosest := (ascending_of_scan h).closest?_mark hdirective
    have htwo : (((comment.directive (index + 1)).mark : Int) + 1) = index + 2 := by
      simp only [Comment.directive]
      omega
    rw [htwo] at hclosest
    simp only [origin, hclosest, Comment.directive, Location.mk.injEq, true_and]
    omega
  · intro index hnone
    have hclosest : closest? directives (index + 1 + 1) = closest? directives (index + 1) := by
      refine closest?_succ fun directive hdirective hmark => ?_
      obtain ⟨place, line, hline, comment, hleads, rfl⟩ := (hmem directive).mp hdirective
      obtain rfl : place = index := by
        simp only [Comment.directive] at hmark
        omega
      exact hnone line hline comment hleads.valid hleads.text
    have htwo : (index : Int) + 1 + 1 = index + 2 := by omega
    rw [htwo] at hclosest
    simp only [origin, hclosest]
    cases closest? directives (index + 1) with
    | none =>
        simp only [Location.mk.injEq, true_and]
        omega
    | some directive =>
        simp only [Location.mk.injEq, true_and]
        omega

end Directive

namespace Relocator

open Directive

/-- A file has had the same text all the time, and its directives can be read. -/
structure Unchanged (visits : List Visit) (sources : Sources) (path text : String) : Prop where
  readable : Readable text
  before : ∀ visit ∈ visits, visit.sources path = .ok text
  now : sources path = .ok text

/-- What is read first of a file is the text that it has at some visit. -/
private theorem exists_visit_of_firstRead {visits : List Visit} {path text : String}
    (h : firstRead visits path = some text) :
    ∃ visit ∈ visits, visit.sources path = .ok text := by
  obtain ⟨visit, hvisit, hread⟩ := List.exists_of_findSome?_eq_some h
  refine ⟨visit, hvisit, ?_⟩
  unfold Visit.read? at hread
  split at hread
  · split at hread
    · cases hread
    · rename_i found hfound
      split at hread
      · rw [hfound, Option.some.inj hread]
      · cases hread
  · cases hread

/-- The directives of a file that has not changed are those of its text. -/
theorem Unchanged.consult_keptBy {visits : List Visit} {sources : Sources} {path text : String}
    (h : Unchanged visits sources path text) :
    consult (keptBy visits) sources path = scan text := by
  cases hkept : keptBy visits path with
  | none => simp [consult, hkept, scanFrom, h.now]
  | some directives =>
      obtain ⟨first, hfirst, hscan⟩ := (keptBy_eq_some_iff visits path directives).mp hkept
      obtain ⟨visit, hvisit, hread⟩ := exists_visit_of_firstRead hfirst
      have hsame : first = text := Except.ok.inj (hread.symm.trans (h.before visit hvisit))
      rw [← hsame, hscan]
      simp [consult, hkept]

/-- The lines of a file that has not changed come from where its directives say. -/
theorem Unchanged.relocate {visits : List Visit} {sources : Sources} {path text : String}
    (h : Unchanged visits sources path text) {directives : List Directive}
    (hscan : scan text = .ok directives) (line : Int) :
    ((after visits).relocate sources ⟨path, line⟩).1 = .ok (origin directives ⟨path, line⟩) := by
  rw [((coherent_after visits).relocate sources ⟨path, line⟩).1, h.consult_keptBy, hscan]
  rfl

/-- **Relocation is stepping through the text.** In a file that does not change, every line, also
one above or below the text, has the place that a reader finds who goes through the text line by
line. What the relocator was asked before, about this file or others, makes no difference, and
neither does any line of the text that is not above the one in question. -/
theorem relocate_stepwise {visits : List Visit} {sources : Sources} {path text : String}
    (h : Unchanged visits sources path text) :
    ∃ place, Stepwise text path place ∧
      (∀ line, ((after visits).relocate sources ⟨path, line⟩).1 = .ok (place line)) ∧
      ∀ visits' sources' other, Unchanged visits' sources' path other →
        ∀ line : Int,
          (lines other).take (line - 1).toNat = (lines text).take (line - 1).toNat →
          ((after visits').relocate sources' ⟨path, line⟩).1 = .ok (place line) := by
  obtain ⟨directives, hscan⟩ := (readable_iff text).mp h.readable
  refine ⟨_, stepwise_origin hscan path, h.relocate hscan, ?_⟩
  intro visits' sources' other hother line hlines
  obtain ⟨found, hfound⟩ := (readable_iff other).mp hother.readable
  rw [hother.relocate hfound]
  exact congrArg Except.ok
    ((stepwise_origin hfound path).eq_of_take_eq (stepwise_origin hscan path) hlines)

/-- A file with one directive, asked about its last line first and then about all of them. -/
theorem relocate_stepwise_generated :
    Unchanged [⟨fun _ => .ok "x\n//@line 20 \"a.js\"\ny\n", .relocate ⟨"gen.js", 4⟩⟩]
        (fun _ => .ok "x\n//@line 20 \"a.js\"\ny\n") "gen.js" "x\n//@line 20 \"a.js\"\ny\n" ∧
      ∃ place, Stepwise "x\n//@line 20 \"a.js\"\ny\n" "gen.js" place ∧ ∀ line,
        ((after [⟨fun _ => .ok "x\n//@line 20 \"a.js\"\ny\n", .relocate ⟨"gen.js", 4⟩⟩]).relocate
          (fun _ => .ok "x\n//@line 20 \"a.js\"\ny\n") ⟨"gen.js", line⟩).1 = .ok (place line) := by
  have hunchanged : Unchanged
      [⟨fun _ => .ok "x\n//@line 20 \"a.js\"\ny\n", .relocate ⟨"gen.js", 4⟩⟩]
      (fun _ => .ok "x\n//@line 20 \"a.js\"\ny\n") "gen.js" "x\n//@line 20 \"a.js\"\ny\n" :=
    ⟨(readable_iff _).mpr ⟨[⟨2, 20, "a.js"⟩], by cbv⟩, fun _ hvisit => by simp_all, rfl⟩
  obtain ⟨place, hsteps, hplace, -⟩ := relocate_stepwise hunchanged
  exact ⟨hunchanged, place, hsteps, hplace⟩

end Relocator

end LineCoverage
