import LineCoverage.Command.Options

/-!
# `LineCoverage.Proofs.Command.Options`: an option in front of others

Options take effect in order, so a later one could undo what an earlier one
set, and could swallow it as a value. `ofArguments_map` says when a change of
the settings may be made before some arguments as well as after them: if it
commutes with every option among them. Nothing else looks at the settings.

The option that names the file of the trace commutes with every other one, and
so does the one that forbids to pass lines on. In front of a command line that
does not give them they have their effect and no other: `ofTexts_data` and
`ofTexts_noEcho`.
-/

set_option autoImplicit false

namespace LineCoverage.Command

/-- The option that an argument gives. -/
def Argument.switch? : Argument → Option Switch
  | .option switch => some switch
  | .assignment switch _ => some switch
  | _ => none

/-- No argument of a command line gives an option, in full or cut short. -/
def Omits (switch : Switch) (texts : List String) : Prop :=
  ∀ arguments, Argument.ofTexts texts = .ok arguments →
    ∀ argument ∈ arguments, argument.switch? ≠ some switch

/-- What is asked for under changed settings. -/
def Request.map (change : Settings → Settings) : Request → Request
  | .help => .help
  | .version => .version
  | .run settings => .run (change settings)

/-- Whether it does not matter if a change of the settings or an option comes first. -/
def Commutes (change : Settings → Settings) (switch : Switch) : Prop :=
  ∀ settings values, change (settings.set switch values) = (change settings).set switch values

/-- Whether it does not matter if a change of the settings or any of some arguments comes first. -/
def CommutesAll (change : Settings → Settings) (arguments : List Argument) : Prop :=
  ∀ argument ∈ arguments, ∀ switch, argument.switch? = some switch → Commutes change switch

/-- What comes after an argument gives no more options. -/
theorem CommutesAll.tail {change : Settings → Settings} {argument : Argument}
    {rest : List Argument} (h : CommutesAll change (argument :: rest)) : CommutesAll change rest :=
  fun other hother => h other (List.mem_cons_of_mem argument hother)

/-! ### Options in order -/

/-- An option that does not end the run on the spot takes its values from what follows. -/
theorem ofArguments_option (settings : Settings) (unused : List String) {switch : Switch}
    (rest : List Argument) (hhelp : switch ≠ .help) (hversion : switch ≠ .version) :
    Request.ofArguments settings unused (.option switch :: rest)
      = match switch.arity with
        | .nothing => Request.ofArguments (settings.set switch []) unused rest
        | .many => Request.ofArguments (settings.set switch (leadingValues rest)) unused
            (rest.drop (leadingValues rest).length)
        | .one =>
          match rest with
          | .value text :: rest => Request.ofArguments (settings.set switch [text]) unused rest
          | _ => .error (.missingValue switch) := by
  rw [Request.ofArguments.eq_def]
  cases switch <;> first | contradiction | rfl

/-- A change of the settings can be made before some arguments or after them, if it commutes with
every option among them. -/
theorem ofArguments_map {change : Settings → Settings} (settings : Settings)
    (unused : List String) {arguments : List Argument} (h : CommutesAll change arguments) :
    Request.ofArguments (change settings) unused arguments
      = (Request.ofArguments settings unused arguments).map (Request.map change) := by
  -- The cases of the definition. Only those that set something use `h` for their first argument.
  fun_induction Request.ofArguments settings unused arguments with
  | case1 settings =>
      rw [Request.ofArguments, if_pos rfl]
      rfl
  | case2 settings unused hunused =>
      rw [Request.ofArguments, if_neg hunused]
      rfl
  | case3 settings unused text rest ih =>
      rw [Request.ofArguments]
      exact ih h.tail
  | case4 settings unused text rest ih =>
      rw [Request.ofArguments]
      exact ih h.tail
  | case5 settings unused rest ih =>
      rw [Request.ofArguments]
      exact ih h.tail
  | case6 settings unused misuse rest =>
      rw [Request.ofArguments]
      rfl
  | case7 settings unused switch text rest ih =>
      rw [Request.ofArguments, ← h _ List.mem_cons_self switch rfl]
      exact ih h.tail
  | case8 settings unused rest =>
      rw [Request.ofArguments]
      rfl
  | case9 settings unused rest =>
      rw [Request.ofArguments]
      rfl
  | case10 settings unused switch rest hhelp hversion harity ih =>
      rw [ofArguments_option _ _ rest hhelp hversion, harity]
      dsimp only
      rw [← h _ List.mem_cons_self switch rfl]
      exact ih h.tail
  | case11 settings unused switch rest hhelp hversion harity values ih =>
      rw [ofArguments_option _ _ rest hhelp hversion, harity]
      dsimp only
      rw [← h _ List.mem_cons_self switch rfl]
      exact ih fun other hother => h.tail other (List.mem_of_mem_drop hother)
  | case12 settings unused switch hhelp hversion harity text rest ih =>
      rw [ofArguments_option _ _ (.value text :: rest) hhelp hversion, harity]
      dsimp only
      rw [← h _ List.mem_cons_self switch rfl]
      exact ih h.tail.tail
  | case13 settings unused switch rest hhelp hversion harity hnone =>
      rw [ofArguments_option _ _ rest hhelp hversion, harity]
      cases rest with
      | nil => rfl
      | cons first others =>
          cases first with
          | value text => exact absurd rfl (hnone text others)
          | _ => rfl

/-- Where the trace comes from is a matter of one option. -/
theorem commutes_set_data (values : List String) {switch : Switch} (h : switch ≠ .data) :
    Commutes (·.set .data values) switch := by
  intro settings others
  cases switch <;> first | contradiction | rfl

/-- Whether lines are passed on is a matter of one option. -/
theorem commutes_echo (echo : Bool) {switch : Switch} (h : switch ≠ .noEcho) :
    Commutes ({ · with echo := echo }) switch := by
  intro settings others
  cases switch <;> first | contradiction | rfl

/-! ### One option in front -/

/-- A text that does not begin with a dash is a value. -/
theorem ofText_value {text : String} (h : text.toList.head? ≠ some '-') :
    Argument.ofText text = .ok [.value text] := by
  unfold Argument.ofText
  dsimp only
  split
  · rename_i htext _
    rw [htext] at h
    exact absurd rfl h
  · rename_i htext _
    rw [htext] at h
    exact absurd rfl h
  · rfl

/-- An argument that can be told comes in front of the others. -/
theorem ofTexts_cons {text : String} {first : List Argument} (htext : text ≠ "--")
    (hfirst : Argument.ofText text = .ok first) (rest : List String) :
    Argument.ofTexts (text :: rest) = (Argument.ofTexts rest).map (first ++ ·) := by
  rw [Argument.ofTexts, if_neg htext, hfirst]

section Front

variable {terminal : Bool} {texts : List String} {settings : Settings}

/-- The arguments of a command line that makes sense. -/
theorem exists_of_ofTexts {request : Request} (h : Request.ofTexts terminal texts = .ok request) :
    ∃ arguments, Argument.ofTexts texts = .ok arguments ∧
      Request.ofArguments (.initial terminal) [] arguments = .ok request := by
  unfold Request.ofTexts at h
  cases htexts : Argument.ofTexts texts with
  | error misuse =>
      rw [htexts] at h
      cases h
  | ok arguments =>
      rw [htexts] at h
      exact ⟨arguments, rfl, h⟩

/-- What a command line asks for under other settings than the initial ones, if it does not give the
option that the change is about. -/
theorem ofArguments_of_omits {switch : Switch} {arguments : List Argument}
    (homits : Omits switch texts) (htexts : Argument.ofTexts texts = .ok arguments)
    (hrun : Request.ofArguments (.initial terminal) [] arguments = .ok (.run settings))
    {change : Settings → Settings} (hchange : ∀ other, other ≠ switch → Commutes change other) :
    Request.ofArguments (change (.initial terminal)) [] arguments
      = .ok (.run (change settings)) := by
  have hall : CommutesAll change arguments := by
    intro argument hmem other hother
    refine hchange other ?_
    rintro rfl
    exact homits arguments htexts argument hmem hother
  rw [ofArguments_map _ _ hall, hrun]
  rfl

/-- The trace comes from the standard input if nothing else is said. -/
theorem data_of_omits (homits : Omits .data texts)
    (h : Request.ofTexts terminal texts = .ok (.run settings)) : settings.data = none := by
  obtain ⟨arguments, htexts, hrun⟩ := exists_of_ofTexts h
  have hsame := ofArguments_of_omits homits htexts hrun fun _ => commutes_set_data []
  -- Without a file the initial settings are as they were.
  have hinitial : (Settings.initial terminal).set .data [] = .initial terminal := rfl
  rw [hinitial, hrun] at hsame
  rw [Request.run.inj (Except.ok.inj hsame)]
  rfl

/-- Lines are passed on if nothing else is said. -/
theorem echo_of_omits (homits : Omits .noEcho texts)
    (h : Request.ofTexts terminal texts = .ok (.run settings)) : settings.echo = true := by
  obtain ⟨arguments, htexts, hrun⟩ := exists_of_ofTexts h
  have hsame := ofArguments_of_omits homits htexts hrun fun _ => commutes_echo true
  have hinitial : { Settings.initial terminal with echo := true } = .initial terminal := rfl
  rw [hinitial, hrun] at hsame
  rw [Request.run.inj (Except.ok.inj hsame)]

/-- A command line with the file of the trace in front. -/
theorem ofTexts_data {path : String} (hpath : path.toList.head? ≠ some '-')
    (homits : Omits .data texts) (h : Request.ofTexts terminal texts = .ok (.run settings)) :
    Request.ofTexts terminal ("-data" :: path :: texts)
      = .ok (.run { settings with data := some path }) := by
  obtain ⟨arguments, htexts, hrun⟩ := exists_of_ofTexts h
  have hmark : path ≠ "--" := by
    rintro rfl
    exact hpath rfl
  have hparts : Argument.ofTexts ("-data" :: path :: texts)
      = .ok (.option .data :: .value path :: arguments) := by
    have hfirst : Argument.ofText "-data" = .ok [.option .data] := rfl
    rw [ofTexts_cons (by decide) hfirst, ofTexts_cons hmark (ofText_value hpath), htexts]
    rfl
  have hdata := ofArguments_of_omits homits htexts hrun fun _ => commutes_set_data [path]
  unfold Request.ofTexts
  rw [hparts]
  dsimp only
  rw [ofArguments_option _ _ (.value path :: arguments) (by decide) (by decide)]
  exact hdata

/-- A command line that forbids to pass lines on. -/
theorem ofTexts_noEcho (homits : Omits .noEcho texts)
    (h : Request.ofTexts terminal texts = .ok (.run settings)) :
    Request.ofTexts terminal ("-no-echo" :: texts)
      = .ok (.run { settings with echo := false }) := by
  obtain ⟨arguments, htexts, hrun⟩ := exists_of_ofTexts h
  have hparts : Argument.ofTexts ("-no-echo" :: texts) = .ok (.option .noEcho :: arguments) := by
    have hfirst : Argument.ofText "-no-echo" = .ok [.option .noEcho] := rfl
    rw [ofTexts_cons (by decide) hfirst, htexts]
    rfl
  have hecho := ofArguments_of_omits homits htexts hrun fun _ => commutes_echo false
  unfold Request.ofTexts
  rw [hparts]
  dsimp only
  rw [ofArguments_option _ _ arguments (by decide) (by decide)]
  exact hecho

end Front

end LineCoverage.Command
