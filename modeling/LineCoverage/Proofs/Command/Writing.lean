import LineCoverage.Command.Run
import LineCoverage.Proofs.Disk

/-!
# `LineCoverage.Proofs.Command.Writing`: what writing a page leaves on the disk

A page is complete before its file is opened, and it is encoded after that. So a
page that cannot be built leaves nothing behind, and one that cannot be encoded
leaves an empty file: `replaces_withPage` says what stands in the file, and
`disk_page_file` when it was opened.

It cannot be encoded if bytes of the standard input that are no text are in it
(`encodePage_eq_ok_iff`).
-/

set_option autoImplicit false

namespace LineCoverage.Command

open Text

/-! ### The file of a page -/

/-- A page can be encoded exactly if none of its characters stands for a byte that is no text. -/
theorem encodePage_eq_ok_iff (stray? : Char → Option UInt8) (page : List Char)
    (bytes : List UInt8) :
    encodePage stray? page = .ok bytes ↔
      (∀ c ∈ page, stray? c = none) ∧ bytes = Utf8.encode page := by
  unfold encodePage
  cases hfound : page.findIdx? fun c => (stray? c).isSome with
  | none =>
      have hall : ∀ c ∈ page, stray? c = none := by simpa using hfound
      exact ⟨fun h => ⟨hall, (Except.ok.inj h).symm⟩, fun h => congrArg Except.ok h.2.symm⟩
  | some position =>
      have hstray : ¬∀ c ∈ page, stray? c = none := by
        intro hall
        have hnone : page.findIdx? (fun c => (stray? c).isSome) = none := by simpa using hall
        rw [hnone] at hfound
        cases hfound
      simp [hstray]

/-- A disk after a page was written to a file that is open: the file has the bytes of the page, and
if there are none for it, it is empty. -/
def withPage (stray? : Char → Option UInt8) (disk : Disk) (place : Place) (page : String) : Disk :=
  match encodePage stray? page.toList with
  | .error _ => disk.store place []
  | .ok bytes => (disk.store place []).store place bytes

/-- What stands in the file of a page: the whole page, or nothing at all. -/
theorem replaces_withPage {disk : Disk} {path page : String} {place : Place}
    {stray? : Char → Option UInt8} (h : disk.openPlace path = .ok place) :
    ((∀ c ∈ page.toList, stray? c = none) →
      disk.Replaces (withPage stray? disk place page) (Place.ofPath path)
        (Utf8.encode page.toList)) ∧
    ((∃ c ∈ page.toList, stray? c ≠ none) →
      disk.Replaces (withPage stray? disk place page) (Place.ofPath path) []) := by
  have hopened := Disk.replaces_store h []
  obtain ⟨rfl, hnames⟩ := Disk.place_of_openPlace h
  unfold withPage
  cases hbytes : encodePage stray? page.toList with
  | error fault =>
      refine ⟨fun hall => ?_, fun _ => hopened⟩
      rw [(encodePage_eq_ok_iff _ _ _).mpr ⟨hall, rfl⟩] at hbytes
      cases hbytes
  | ok bytes =>
      obtain ⟨hall, rfl⟩ := (encodePage_eq_ok_iff _ _ _).mp hbytes
      refine ⟨fun _ => hopened.store hnames _, ?_⟩
      rintro ⟨c, hmem, hstray⟩
      exact absurd (hall c hmem) hstray

/-- No other file is touched. -/
theorem others_withPage {disk : Disk} {path page : String} {place : Place}
    {stray? : Char → Option UInt8} (h : disk.openPlace path = .ok place) (other : Place)
    (hother : other ≠ Place.ofPath path) :
    (withPage stray? disk place page).node? other = disk.node? other := by
  obtain ⟨hwritten, hemptied⟩ := @replaces_withPage disk path page place stray? h
  by_cases hall : ∀ c ∈ page.toList, stray? c = none
  · exact (hwritten hall).others other hother
  · exact (hemptied (by simpa using hall)).others other hother

/-! ### Getting there -/

section Disk

variable {surroundings : Surroundings} {settings : Settings}

/-- Writing the page to a path: the file is opened for a page that is complete, or nothing
happened. -/
theorem disk_writePage (targets : List Target) (outcome : Outcome) (path : String) :
    (∃ text place, Page.text outcome.disk.readText settings.showOps targets = .ok text ∧
      outcome.disk.openPlace path = .ok place ∧
      (writePage surroundings settings targets outcome path).disk
        = withPage surroundings.stray? outcome.disk place text) ∨
    ((writePage surroundings settings targets outcome path).disk = outcome.disk ∧
      ¬((∃ text, Page.text outcome.disk.readText settings.showOps targets = .ok text) ∧
        outcome.disk.CanWrite path)) := by
  unfold writePage
  cases htext : Page.text outcome.disk.readText settings.showOps targets with
  | error fault =>
      refine .inr ⟨rfl, ?_⟩
      rintro ⟨⟨text, hok⟩, -⟩
      cases hok
  | ok text =>
      dsimp only
      cases hopen : outcome.disk.openPlace path with
      | error fault =>
          refine .inr ⟨rfl, ?_⟩
          rintro ⟨-, hcan⟩
          obtain ⟨place, hplace⟩ := Disk.exists_openPlace_iff.mpr hcan
          rw [hopen] at hplace
          cases hplace
      | ok place =>
          refine .inl ⟨text, place, rfl, rfl, ?_⟩
          dsimp only [withPage]
          cases encodePage surroundings.stray? text.toList <;> rfl

variable (surroundings) in
/-- The page for a path that the user named. -/
theorem disk_page_file {path : String} (hfile : settings.page = .file path) (targets : List Target)
    (outcome : Outcome) :
    (∃ text place, Page.text outcome.disk.readText settings.showOps targets = .ok text ∧
      outcome.disk.openPlace path = .ok place ∧
      (outcome.disk.isTaken path = true → settings.force = true) ∧
      (page surroundings settings targets outcome).disk
        = withPage surroundings.stray? outcome.disk place text) ∨
    ((page surroundings settings targets outcome).disk = outcome.disk ∧
      ¬((outcome.disk.isTaken path = true → settings.force = true) ∧
        (∃ text, Page.text outcome.disk.readText settings.showOps targets = .ok text) ∧
        outcome.disk.CanWrite path)) := by
  unfold page
  rw [hfile]
  dsimp only
  split
  · -- The path is empty, and nothing can be written there.
    rename_i hempty
    refine .inr ⟨rfl, ?_⟩
    rintro ⟨-, -, hcheck, -⟩
    rw [Bool.and_eq_true, decide_eq_true_eq] at hempty
    rw [hempty.1] at hcheck
    cases hcheck
  · split
    · rename_i htaken
      rw [Bool.and_eq_true, Bool.not_eq_true'] at htaken
      refine .inr ⟨rfl, ?_⟩
      rintro ⟨hfree, -⟩
      rw [hfree htaken.2] at htaken
      cases htaken.1
    · rename_i htaken
      have hfree : outcome.disk.isTaken path = true → settings.force = true := by
        intro hpath
        rw [hpath, Bool.and_true, Bool.not_eq_true', Bool.not_eq_false] at htaken
        exact htaken
      rcases disk_writePage targets outcome path with
        ⟨text, place, htext, hopen, hdisk⟩ | ⟨hdisk, hfails⟩
      · exact .inl ⟨text, place, htext, hopen, hfree, hdisk⟩
      · exact .inr ⟨hdisk, fun h => hfails h.2⟩

/-- A page that cannot be named is not written. -/
theorem disk_page_unnamed (hpage : settings.page = .unnamed) (targets : List Target)
    (outcome : Outcome) :
    (page surroundings settings targets outcome).disk = outcome.disk := by
  unfold page
  rw [hpage]
  dsimp only
  split
  · unfold failUnnamed
    split
    · split <;> rfl
    · rfl
  · rfl

end Disk

end LineCoverage.Command
