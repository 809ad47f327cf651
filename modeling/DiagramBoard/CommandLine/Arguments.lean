/-
DiagramBoard.CommandLine.Arguments — what the arguments of the command line ask for.

The first argument names a command, and the others give a file and options in any order.  An option
has a long form, whose value is the next argument or follows `=`, and a short one, whose value may
also follow directly; short forms without a value may be written together.  Behind `--` there are
no options.  Except for `-v`, which only asks for more messages, nothing may be given twice, and no
file may be empty.

Main statement: what was given once cannot be given again (`Given.name_of_name`,
`Given.addSwitch_of_addSwitch`).
-/

namespace DiagramBoard.CommandLine

/-- What can be asked for; a file that is not named is the standard input. -/
inductive Command
  /-- Print the elements of a board that is brought up to date with a text. -/
  | reconcile (text elements options : Option String)
  /-- Print the text of a board. -/
  | describe (elements : Option String) (compact : Bool)
  /-- Print a text as it would be written. -/
  | format (text : Option String) (compact : Bool)
deriving DecidableEq, Repr

/-- The names of commands. -/
inductive Verb
  | reconcile | describe | format
deriving DecidableEq, Repr

/-- The options of commands. -/
inductive Switch
  | elements | options | compact | verbose
deriving DecidableEq, Repr

/-- The verb of an argument. -/
def Verb.ofName? : String → Option Verb
  | "reconcile" => some .reconcile
  | "describe" => some .describe
  | "format" => some .format
  | _ => none

namespace Switch

/-- The option of a long form. -/
def ofLong? : String → Option Switch
  | "elements" => some elements
  | "options" => some options
  | "compact" => some compact
  | "verbose" => some verbose
  | _ => none

/-- The option of a short form. -/
def ofShort? : Char → Option Switch
  | 'e' => some elements
  | 'o' => some options
  | 'c' => some compact
  | 'v' => some verbose
  | _ => none

/-- Whether an option is followed by a file. -/
def hasValue : Switch → Bool
  | elements | options => true
  | compact | verbose => false

/-- Whether a command has an option. -/
def isOf (verb : Verb) : Switch → Bool
  | elements | options => verb = .reconcile
  | compact => verb ≠ .reconcile
  | verbose => true

end Switch

/-- What some arguments have given so far. -/
structure Given where
  file : Option String := none
  elements : Option String := none
  options : Option String := none
  compact : Bool := false
deriving DecidableEq, Repr

namespace Given

/-- A file name where there was none. -/
def name (known : Option String) (file : String) : Option (Option String) :=
  if known.isNone && file ≠ "" then some (some file) else none

/-- One more file that is not the value of an option. -/
def addFile (g : Given) (file : String) : Option Given :=
  (name g.file file).map fun f => { g with file := f }

/-- The value of an option. -/
def addValue (g : Given) (switch : Switch) (file : String) : Option Given :=
  match switch with
  | .elements => (name g.elements file).map fun f => { g with elements := f }
  | .options => (name g.options file).map fun f => { g with options := f }
  | .compact | .verbose => none

/-- An option without a value. -/
def addSwitch (g : Given) : Switch → Option Given
  | .compact => if g.compact then none else some { g with compact := true }
  | .verbose => some g
  | .elements | .options => none

/-- The command that a verb and all that is given make. -/
def command (g : Given) : Verb → Command
  | .reconcile => .reconcile g.file g.elements g.options
  | .describe => .describe g.file g.compact
  | .format => .format g.file g.compact

end Given

/-! ## Reading arguments -/

/-- What has been given and an option that still needs its value. -/
structure Progress where
  given : Given := {}
  pending : Option Switch := none

/-- Reads short forms that are written together. -/
def readShort (verb : Verb) (g : Given) : List Char → Option Progress
  | [] => some { given := g }
  | c :: r => do
    let switch ← (Switch.ofShort? c).filter (Switch.isOf verb)
    if switch.hasValue then
      match r with
      | [] => return { given := g, pending := some switch }
      | '=' :: r => return { given := ← g.addValue switch (String.ofList r) }
      | r => return { given := ← g.addValue switch (String.ofList r) }
    else readShort verb (← g.addSwitch switch) r

/-- Reads a long form, given without its two dashes. -/
def readLong (verb : Verb) (g : Given) (form : List Char) : Option Progress := do
  let name := form.takeWhile (· ≠ '=')
  let switch ← (Switch.ofLong? (String.ofList name)).filter (Switch.isOf verb)
  match form.drop name.length with
  | [] =>
    if switch.hasValue then return { given := g, pending := some switch }
    else return { given := ← g.addSwitch switch }
  | _ :: value =>
    if switch.hasValue then return { given := ← g.addValue switch (String.ofList value) }
    else none

/-- Reads one argument. -/
def readArgument (verb : Verb) (p : Progress) (argument : String) : Option Progress :=
  match argument.toList, p.pending with
  | '-' :: '-' :: form, none => readLong verb p.given form
  | '-' :: c :: r, none => readShort verb p.given (c :: r)
  | '-' :: _ :: _, some _ => none
  | _, none => (p.given.addFile argument).map fun g => { given := g }
  | _, some switch => (p.given.addValue switch argument).map fun g => { given := g }

/-- Reads the arguments behind a verb. -/
def readArguments (verb : Verb) (p : Progress) : List String → Option Given
  | [] => if p.pending.isSome then none else some p.given
  | "--" :: files => if p.pending.isSome then none else files.foldlM Given.addFile p.given
  | argument :: arguments => do readArguments verb (← readArgument verb p argument) arguments

/-- Whether an argument only asks for more messages. -/
def isVerbose (argument : String) : Bool :=
  match argument.toList with
  | '-' :: c :: r => argument = "--verbose" || (c :: r).all (· == 'v')
  | _ => false

/-- The command that some arguments ask for, if they are well formed. -/
def Command.parse? (arguments : List String) : Option Command :=
  match arguments.dropWhile isVerbose with
  | [] => none
  | first :: rest => do
    let verb ← Verb.ofName? first
    return (← readArguments verb {} rest).command verb

/-! ## Repeated arguments -/

/-- A file that was given cannot be given again. -/
theorem Given.name_of_name {known next : Option String} {file again : String}
    (h : Given.name known file = some next) : Given.name next again = none := by
  unfold Given.name at h
  split at h
  · obtain rfl := (Option.some.inj h).symm
    simp [Given.name]
  · simp at h

/-- The compact form cannot be asked for again. -/
theorem Given.addSwitch_of_addSwitch {g next : Given} (h : g.addSwitch .compact = some next) :
    next.addSwitch .compact = none := by
  simp only [Given.addSwitch] at h
  split at h
  · simp at h
  · obtain rfl := (Option.some.inj h).symm
    rfl

end DiagramBoard.CommandLine
