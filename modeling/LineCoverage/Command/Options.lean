import LineCoverage.Text.DecimalDigit
import LineCoverage.Text.Quoted

/-!
# `LineCoverage.Command.Options`: the options of the command line

An argument is an option if it is spelled like one, and a value otherwise. An
option may be cut short as long as no other begins the same way, and its value
may follow an equals sign. What begins with a dash and is no option is still a
value if it is a negative number or holds a space; any other is unknown. After
`--` every argument is a value.

A text attached to an option that takes no value, after an equals sign or right
behind its only letter, spells more options, one letter each. It makes no sense
as soon as a letter is no option, or where the option has two dashes. Attached
to an option that takes values, `--` means that there are none.

All arguments are told apart before the first option takes effect, so an
ambiguous one is reported whatever else is wrong. Then the options take effect
in order: `-version` and `-h` end the run on the spot, an option that needs a
value takes the next argument, and `-targets` takes all values that follow. An
attached text that makes no sense is reported when its turn comes, before any
option spelled in the same argument takes effect. Of an option that is given
twice the last one counts. Values that no option takes, unknown options and `--`
itself are reported in the end.
-/

set_option autoImplicit false

namespace LineCoverage.Command

/-- The options. -/
inductive Switch where
  | help
  | data
  | targets
  | quiet
  | percent
  | compact
  | listLines
  | html
  | force
  | openPage
  | showOps
  | atLines
  | noEcho
  | version
  | colorOn
  | colorOff
  deriving DecidableEq, Repr

/-- How many values an option takes. -/
inductive Arity where
  | nothing
  | one
  | many
  deriving DecidableEq, Repr

namespace Switch

/-- The spellings of the options, in the order in which candidates are listed. -/
def spellings : List (String × Switch) :=
  [("-h", help), ("--help", help), ("-data", data), ("-targets", targets), ("-quiet", quiet),
    ("-percent", percent), ("-compact", compact), ("-list-lines", listLines), ("-html", html),
    ("-force", force), ("-open", openPage), ("-show-ops", showOps), ("-at-lines", atLines),
    ("-no-echo", noEcho), ("-version", version), ("-color-on", colorOn), ("-color-off", colorOff)]

/-- The option with a spelling. -/
def ofSpelling? (text : String) : Option Switch :=
  (spellings.find? (·.1 = text)).map Prod.snd

/-- An option in messages: all its spellings. -/
def name (switch : Switch) : String :=
  "/".intercalate ((spellings.filter (·.2 = switch)).map Prod.fst)

/-- How many values an option takes. -/
def arity : Switch → Arity
  | .data | .html => .one
  | .targets => .many
  | _ => .nothing

end Switch

/-- Why a command line makes no sense. -/
inductive Misuse where
  /-- A short form of several options. -/
  | ambiguous (argument : String) (candidates : List String)
  /-- An option without the value that it needs. -/
  | missingValue (switch : Switch)
  /-- A text attached to an option that takes no value, which spells no other option. -/
  | unwantedValue (switch : Switch) (value : String)
  /-- Arguments that mean nothing. -/
  | unrecognized (arguments : List String)
  deriving DecidableEq, Repr

/-- The wording of a misuse. -/
def Misuse.message : Misuse → String
  | .ambiguous argument candidates =>
    "ambiguous option: " ++ argument ++ " could match " ++ ", ".intercalate candidates
  | .missingValue switch => "argument " ++ switch.name ++ ": expected one argument"
  | .unwantedValue switch value =>
    "argument " ++ switch.name ++ ": ignored explicit argument " ++ Text.quoted value
  | .unrecognized arguments => "unrecognized arguments: " ++ " ".intercalate arguments

/-! ### Telling arguments apart -/

/-- An argument on its own. -/
inductive Argument where
  /-- An option. -/
  | option (switch : Switch)
  /-- An option that takes values, with the text attached to it. -/
  | assignment (switch : Switch) (text : String)
  /-- An option with an attached text that makes no sense. -/
  | misused (misuse : Misuse)
  /-- Spelled like an option, but none. -/
  | unknown (text : String)
  | value (text : String)
  /-- The mark after which there are only values. -/
  | separator
  deriving DecidableEq, Repr

/-- The text before the first equals sign and the text after it. -/
def splitEquals? (text : List Char) : Option (List Char × List Char) :=
  match text.dropWhile (· ≠ '=') with
  | [] => none
  | _ :: after => some (text.takeWhile (· ≠ '='), after)

/-- Whether a text is a negative number: a dash, and digits with a point before some of them or
none. One line feed may follow. -/
def isNegativeNumber (text : List Char) : Bool :=
  match text with
  | '-' :: number =>
    let number := if number.getLast? = some '\n' then number.dropLast else number
    let fraction := number.dropWhile Text.isDigit
    match fraction with
    | [] => !number.isEmpty
    | '.' :: digits => !digits.isEmpty && digits.all Text.isDigit
    | _ => false
  | _ => false

/-- An option under the spelling that an argument means, and the text attached to it. -/
structure Reading where
  spelling : String
  switch : Switch
  attached : Option (List Char)
  deriving DecidableEq, Repr

/-- The options that `switch` and a text attached to it spell, each letter of the text one that
takes no value. -/
def unbundle (switch : Switch) : List Char → Except Misuse (List Switch)
  | [] => .ok [switch]
  | letter :: rest =>
    match Switch.ofSpelling? (String.ofList ['-', letter]) with
    | none => .error (.unwantedValue switch (String.ofList (letter :: rest)))
    | some next => (unbundle next rest).map (switch :: ·)

/-- What a reading says, as arguments on their own. -/
def Reading.arguments (reading : Reading) : List Argument :=
  match reading.attached with
  | none => [.option reading.switch]
  | some text =>
    let unwanted := Misuse.unwantedValue reading.switch (String.ofList text)
    if reading.switch.arity ≠ .nothing then [.assignment reading.switch (String.ofList text)]
    else if text = [] || "--".isPrefixOf reading.spelling then [.misused unwanted]
    else
      match unbundle reading.switch text with
      | .error misuse => [.misused misuse]
      | .ok switches => switches.map .option

/-- What a long option may be short for: its spelling before an equals sign. -/
def longReadings (text : List Char) : List Reading :=
  let (spelled, attached) := match splitEquals? text with
    | none => (text, none)
    | some (spelled, value) => (spelled, some value)
  (Switch.spellings.filter fun (spelling, _) => spelled.isPrefixOf spelling.toList).map
    fun (spelling, switch) => ⟨spelling, switch, attached⟩

/-- What an option with one dash may be short for. A spelling of one letter may have text right
behind it. -/
def shortReadings (text : List Char) : List Reading :=
  Switch.spellings.filterMap fun (spelling, switch) =>
    if spelling.toList = text.take 2 then some ⟨spelling, switch, some (text.drop 2)⟩
    else if text.isPrefixOf spelling.toList then some ⟨spelling, switch, none⟩
    else none

/-- The option that is spelled out in full, alone or before an equals sign. -/
def fullReading? (text : List Char) : Option Reading :=
  let spelled (spelling : List Char) (attached : Option (List Char)) : Option Reading :=
    let spelling := String.ofList spelling
    (Switch.ofSpelling? spelling).map (⟨spelling, ·, attached⟩)
  -- A whole spelling is never taken for the beginning of another.
  (spelled text none).or
    ((splitEquals? text).bind fun (before, after) => spelled before (some after))

/-- Tells what an argument is. -/
def Argument.ofText (argument : String) : Except Misuse (List Argument) :=
  let text := argument.toList
  match text, fullReading? text with
  | '-' :: _ :: _, some reading => .ok reading.arguments
  | '-' :: second :: _, none =>
    match if second = '-' then longReadings text else shortReadings text with
    | [reading] => .ok reading.arguments
    -- No option begins with a digit, so a negative number stays a value.
    | [] =>
      if isNegativeNumber text || text.contains ' ' then .ok [.value argument]
      else .ok [.unknown argument]
    | readings => .error (.ambiguous argument (readings.map (·.spelling)))
  | _, _ => .ok [.value argument]

/-- Tells the arguments apart, up to the first that cannot be told. -/
def Argument.ofTexts : List String → Except Misuse (List Argument)
  | [] => .ok []
  | argument :: rest =>
    if argument = "--" then .ok (.separator :: rest.map .value)
    else
      match Argument.ofText argument with
      | .error misuse => .error misuse
      | .ok first => (Argument.ofTexts rest).map (first ++ ·)

/-! ### Taking effect -/

/-- Where the page goes. -/
inductive PagePlace where
  /-- Nothing was said about it. -/
  | unsaid
  /-- To a file, but none was named. -/
  | unnamed
  | file (path : String)
  deriving DecidableEq, Repr

/-- The place that the values of an option name. -/
def PagePlace.ofValues : List String → PagePlace
  | [] => .unnamed
  | path :: _ => .file path

/-- What the options ask for. -/
structure Settings where
  /-- The file with the trace; without one it is the standard input. -/
  data : Option String
  /-- The files to report on; none of them means all. -/
  targets : List String
  /-- No text report. -/
  quiet : Bool
  percentOnly : Bool
  compact : Bool
  listLines : Bool
  page : PagePlace
  /-- Whether the page may replace a file. -/
  force : Bool
  /-- Whether the page is opened. -/
  openPage : Bool
  showOps : Bool
  /-- Whether the directives in the sources count. -/
  atLines : Bool
  /-- Whether lines that do not belong to the trace are passed on. -/
  echo : Bool
  color : Bool
  deriving DecidableEq, Repr

/-- Without any option. A terminal gets colors. -/
def Settings.initial (terminal : Bool) : Settings where
  data := none
  targets := []
  quiet := false
  percentOnly := false
  compact := false
  listLines := false
  page := .unsaid
  force := false
  openPage := false
  showOps := false
  atLines := false
  echo := true
  color := terminal

/-- An option takes effect, with its values. -/
def Settings.set (settings : Settings) (switch : Switch) (values : List String) : Settings :=
  match switch with
  | .help | .version => settings
  | .data => { settings with data := values.head? }
  | .targets => { settings with targets := values }
  | .quiet => { settings with quiet := true }
  | .percent => { settings with percentOnly := true }
  | .compact => { settings with compact := true }
  | .listLines => { settings with listLines := true }
  | .html => { settings with page := .ofValues values }
  | .force => { settings with force := true }
  | .openPage => { settings with openPage := true }
  | .showOps => { settings with showOps := true }
  | .atLines => { settings with atLines := true }
  | .noEcho => { settings with echo := false }
  | .colorOn => { settings with color := true }
  | .colorOff => { settings with color := false }

/-- What a command line asks for. -/
inductive Request where
  | help
  | version
  | run (settings : Settings)
  deriving DecidableEq, Repr

/-- The text of a value. -/
def Argument.value? : Argument → Option String
  | .value text => some text
  | _ => none

/-- The values at the front of some arguments. -/
def leadingValues (arguments : List Argument) : List String :=
  (arguments.takeWhile (·.value?.isSome)).filterMap Argument.value?

/-- The values that a text attached to an option gives. -/
def attachedValues (text : String) : List String := if text = "--" then [] else [text]

/-- Lets the options take effect in order. `unused` are the arguments so far that mean
nothing. -/
def Request.ofArguments (settings : Settings) (unused : List String) :
    List Argument → Except Misuse Request
  | [] => if unused = [] then .ok (.run settings) else .error (.unrecognized unused)
  | .value text :: rest => ofArguments settings (unused ++ [text]) rest
  | .unknown text :: rest => ofArguments settings (unused ++ [text]) rest
  | .separator :: rest => ofArguments settings (unused ++ ["--"]) rest
  | .misused misuse :: _ => .error misuse
  | .assignment switch text :: rest =>
    ofArguments (settings.set switch (attachedValues text)) unused rest
  | .option .help :: _ => .ok .help
  | .option .version :: _ => .ok .version
  | .option switch :: rest =>
    match switch.arity with
    | .nothing => ofArguments (settings.set switch []) unused rest
    | .many =>
      -- Values given before by the same option are forgotten, even if none follow here.
      let values := leadingValues rest
      ofArguments (settings.set switch values) unused (rest.drop values.length)
    | .one =>
      match rest with
      | .value text :: rest => ofArguments (settings.set switch [text]) unused rest
      | _ => .error (.missingValue switch)
termination_by arguments => arguments.length
decreasing_by
  all_goals simp only [List.length_cons, List.length_drop]
  all_goals omega

/-- What a command line asks for, or why it makes no sense. -/
def Request.ofTexts (terminal : Bool) (arguments : List String) : Except Misuse Request :=
  match Argument.ofTexts arguments with
  | .error misuse => .error misuse
  | .ok arguments => Request.ofArguments (.initial terminal) [] arguments

end LineCoverage.Command
