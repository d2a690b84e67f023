import LineCoverage.Relocation.Relocator
import Mathlib.Data.List.MinMax

/-!
# `LineCoverage.Proofs.Relocation.Origin`: where a line comes from

`Directive.origin` says where a line comes from by the directives of its file,
without bisection and without anything kept between two questions: of the
directives before the line, the one with the greatest mark counts. `originFrom`
reads the directives off the file that the question names.

`relocate?_eq_origin` proves that bisection gives this answer, and that it gives
one, for directives in ascending order with the lines that they stand on. The
directives of a text are in ascending order (`ascending_of_scan`).
-/

set_option autoImplicit false

namespace LineCoverage

namespace Directive

/-- The directive with the greatest mark before a line. -/
def closest? (directives : List Directive) (line : Int) : Option Directive :=
  (directives.filter fun directive => decide ((directive.mark : Int) < line)).argmax mark

/-- Where a line comes from, by the directives of its file. -/
def origin (directives : List Directive) (query : Location) : Location :=
  match closest? directives query.line with
  | none => query
  | some directive => ⟨directive.file, query.line - directive.mark + directive.line - 1⟩

/-- Directives in the order of the lines that they stand on, one a line at most. -/
def Ascending (directives : List Directive) : Prop :=
  directives.Pairwise fun earlier later => earlier.mark < later.mark

/-! ### The order of the directives in a text -/

/-- Directives on the lines from `first` on stand there, in ascending order. -/
private theorem ascending_of_scanLines {first : Nat} {lines : List (List Char)}
    {directives : List Directive} (h : scanLines first lines = .ok directives) :
    Ascending directives ∧ ∀ directive ∈ directives, first ≤ directive.mark := by
  induction lines generalizing first directives with
  | nil =>
      simp only [scanLines, Except.ok.injEq] at h
      subst h
      exact ⟨List.Pairwise.nil, by simp⟩
  | cons line rest ih =>
      unfold scanLines at h
      split at h
      · obtain ⟨hascending, hmarks⟩ := ih h
        exact ⟨hascending, fun directive hmem => Nat.le_of_succ_le (hmarks directive hmem)⟩
      · split at h
        · cases h
        · split at h
          · cases h
          · rename_i value _ later hlater
            cases h
            obtain ⟨hascending, hmarks⟩ := ih hlater
            -- The new directive stands on line `first`, and the others below it.
            refine ⟨List.pairwise_cons.mpr ⟨hmarks, hascending⟩, ?_⟩
            intro directive hmem
            rcases List.mem_cons.mp hmem with rfl | hmem
            · exact Nat.le_refl _
            · exact Nat.le_of_succ_le (hmarks directive hmem)

/-- The directives of a text stand in ascending order. -/
theorem ascending_of_scan {text : String} {directives : List Directive}
    (h : scan text = .ok directives) : Ascending directives :=
  (ascending_of_scanLines h).1

/-! ### Bisection -/

/-- The marks before position `low` are before a line, and those from `high` on are not. -/
def CutsAt (marks : Array Nat) (line : Int) (low high : Nat) : Prop :=
  (∀ i (h : i < marks.size), i < low → (marks[i] : Int) < line) ∧
    ∀ i (h : i < marks.size), high ≤ i → line ≤ marks[i]

/-- Bisection narrows a cut of ascending marks down to one position. -/
private theorem cutsAt_bisect {marks : Array Nat} (line : Int)
    (hmarks : ∀ i j (hij : i ≤ j) (hj : j < marks.size), marks[i] ≤ marks[j])
    (low high : Nat) (bound : high ≤ marks.size) (hle : low ≤ high)
    (h : CutsAt marks line low high) :
    bisect marks line low high bound ≤ marks.size ∧
      CutsAt marks line (bisect marks line low high bound)
        (bisect marks line low high bound) := by
  fun_induction bisect marks line low high bound with
  | case1 low high bound below middle hbelow ih =>
      -- The mark in the middle is before the line, and so are those before it.
      refine ih (by omega) ⟨fun i hi hlow => ?_, h.2⟩
      have hmono := hmarks i middle (by omega) (by omega)
      omega
  | case2 low high bound below middle hbelow ih =>
      refine ih (by omega) ⟨h.1, fun i hi hhigh => ?_⟩
      have hmono := hmarks middle i hhigh hi
      omega
  | case3 low high bound below =>
      have heq : low = high := by omega
      subst heq
      exact ⟨bound, h⟩

/-- Counting cuts the marks of ascending directives. -/
private theorem cutsAt_countBefore {directives : List Directive} (h : Ascending directives)
    (line : Int) :
    countBefore (directives.toArray.map mark) line ≤ directives.length ∧
      CutsAt (directives.toArray.map mark) line
        (countBefore (directives.toArray.map mark) line)
        (countBefore (directives.toArray.map mark) line) := by
  have hmarks : ∀ i j (hij : i ≤ j) (hj : j < (directives.toArray.map mark).size),
      (directives.toArray.map mark)[i] ≤ (directives.toArray.map mark)[j] := by
    intro i j hij hj
    have hlength : j < directives.length := by simpa using hj
    rcases Nat.lt_or_eq_of_le hij with hlt | rfl
    · have hpair := List.pairwise_iff_getElem.mp h i j (by omega) hlength hlt
      simpa using Nat.le_of_lt hpair
    · exact Nat.le_refl _
  have hall := cutsAt_bisect line hmarks 0 (directives.toArray.map mark).size
    (Nat.le_refl _) (Nat.zero_le _)
    ⟨fun i _ hi => absurd hi (Nat.not_lt_zero i), fun i hi hsize => by omega⟩
  rw [← countBefore] at hall
  simpa using hall

/-- The directives before a line are the first ones, as many as are counted. -/
private theorem filter_eq_take_countBefore {directives : List Directive}
    (h : Ascending directives) (line : Int) :
    directives.filter (fun directive => decide ((directive.mark : Int) < line))
      = directives.take (countBefore (directives.toArray.map mark) line) := by
  obtain ⟨-, hbefore, hafter⟩ := cutsAt_countBefore h line
  generalize countBefore (directives.toArray.map mark) line = count at hbefore hafter ⊢
  conv_lhs => rw [← List.take_append_drop count directives, List.filter_append]
  have htake : (directives.take count).filter
      (fun directive => decide ((directive.mark : Int) < line)) = directives.take count := by
    refine List.filter_eq_self.mpr fun directive hmem => ?_
    obtain ⟨i, hi, rfl⟩ := List.mem_take_iff_getElem.mp hmem
    have hcut := hbefore i (by simp; omega) (by omega)
    simpa using hcut
  have hdrop : (directives.drop count).filter
      (fun directive => decide ((directive.mark : Int) < line)) = [] := by
    refine List.filter_eq_nil_iff.mpr fun directive hmem => ?_
    obtain ⟨i, hi, rfl⟩ := List.mem_drop_iff_getElem.mp hmem
    have hcut := hafter (count + i) (by simp; omega) (by omega)
    simpa using hcut
  rw [htake, hdrop, List.append_nil]

/-- Of ascending directives the last has the greatest mark. -/
private theorem argmax_mark_of_ascending {directives : List Directive}
    (h : Ascending directives) : directives.argmax mark = directives.getLast? := by
  induction directives using List.reverseRecOn with
  | nil => rfl
  | append_singleton earlier last ih =>
      obtain ⟨hearlier, -, hlast⟩ := List.pairwise_append.mp h
      rw [List.argmax_concat, List.getLast?_concat]
      cases hmax : earlier.argmax mark with
      | none => rfl
      | some greatest =>
          have hlt := hlast greatest (List.argmax_mem hmax) last (List.mem_singleton_self last)
          simp [hlt]

/-- Bisection finds where a line comes from, given the lines that the directives stand on. -/
theorem relocate?_eq_origin {directives : List Directive} (h : Ascending directives)
    (query : Location) :
    relocate? directives.toArray (directives.toArray.map mark) query
      = some (origin directives query) := by
  have hclosest : closest? directives query.line
      = (directives.take
          (countBefore (directives.toArray.map mark) query.line)).getLast? := by
    rw [closest?, filter_eq_take_countBefore h]
    exact argmax_mark_of_ascending (h.sublist (List.take_sublist _ _))
  have hle := (cutsAt_countBefore h query.line).1
  unfold relocate? origin
  rw [hclosest]
  cases hcount : countBefore (directives.toArray.map mark) query.line with
  | zero => rfl
  | succ last =>
      -- The last of the directives counted is the one at that position.
      rw [hcount] at hle
      have hlast : directives[last]? = some directives[last] := List.getElem?_eq_getElem hle
      simp [List.getLast?_take, hlast]

end Directive

/-- The directives of a file, by what there is to be read. -/
def scanFrom (sources : Sources) (path : String) : Except Fault (List Directive) :=
  match sources path with
  | .error fault => .error fault
  | .ok text => Directive.scan text

/-- Where a line comes from, by what there is to be read. -/
def originFrom (sources : Sources) (query : Location) : Except Fault Location :=
  (scanFrom sources query.file).map (Directive.origin · query)

/-- The directives that a relocator would read. -/
theorem Relocator.load_eq (sources : Sources) (path : String) :
    load sources path = (scanFrom sources path).map List.toArray := by
  unfold load scanFrom
  cases sources path <;> rfl

/-- The directives that can be read stand in ascending order. -/
theorem ascending_of_scanFrom {sources : Sources} {path : String} {directives : List Directive}
    (h : scanFrom sources path = .ok directives) : Directive.Ascending directives := by
  unfold scanFrom at h
  split at h
  · cases h
  · exact Directive.ascending_of_scan h

end LineCoverage
