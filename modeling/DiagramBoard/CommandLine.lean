/-
DiagramBoard.CommandLine — running commands.

A command reads its files in the order text, elements, options, and what goes wrong first is its
error.  How files are read is left to the caller: any monad will do, and with the identity a run is
a function of the contents of the files.

Main statement: a run is refused exactly if the arguments ask for no command (`refused_iff`).
-/
import DiagramBoard.Board.Describe
import DiagramBoard.CommandLine.Arguments
import DiagramBoard.Json.Printer
import DiagramBoard.Json.Reader
import DiagramBoard.Reconcile

namespace DiagramBoard.CommandLine

/-- Why a command fails. -/
inductive CommandError
  | unreadable (file : Option String)
  | invalidJson (file : Option String)
  | invalidOptions (file : String)
  | notDiagram (e : SyntaxError)
deriving DecidableEq, Repr

/-- An error in words. -/
def CommandError.message : CommandError → String
  | .unreadable file => "failed to read " ++ file.getD "stdin"
  | .invalidJson none => "invalid JSON on stdin"
  | .invalidJson (some file) => "invalid JSON in " ++ file
  | .invalidOptions file => "invalid options in " ++ file
  | .notDiagram e => e.message

/-- What a run of the program comes to. -/
inductive Outcome
  /-- The arguments ask for no command. -/
  | refused
  | failed (e : CommandError)
  | printed (text : String)
deriving DecidableEq, Repr

namespace Outcome

/-- The exit code of the program. -/
def exitCode : Outcome → Nat
  | refused => 2
  | failed _ => 1
  | printed _ => 0

end Outcome

variable {m : Type → Type} [Monad m]

/-- A way to read files and, for no file, the standard input. -/
abbrev FileReader (m : Type → Type) := Option String → m (Option String)

/-- The content of a file. -/
def readFile (read : FileReader m) (file : Option String) : ExceptT CommandError m String := do
  match ← read file with
  | some content => return content
  | none => throw (.unreadable file)

/-- The JSON value in a file. -/
def readJson (read : FileReader m) (file : Option String) :
    ExceptT CommandError m (Json Float) := do
  match Json.read? (← readFile read file) with
  | some v => return v
  | none => throw (.invalidJson file)

/-- The items in a file, none if no file is named. -/
def readItems (read : FileReader m) : Option String → ExceptT CommandError m (List (Item Float))
  | none => return []
  | some file => return Item.listOfJson (← readJson read (some file))

/-- The layout options in a file, the standard ones if no file is named. -/
def readOptions (read : FileReader m) :
    Option String → ExceptT CommandError m (Layout.Options Float)
  | none => return .standard
  | some file => do
    match Layout.Options.decode? (← readJson read (some file)) with
    | some options => return options
    | none => throw (.invalidOptions file)

/-- A diagram, or the error that there is none. -/
def diagramOr {β : Type} : Except SyntaxError β → ExceptT CommandError m β
  | .ok b => return b
  | .error e => throw (.notDiagram e)

/-- The output of a command. -/
def Command.run (read : FileReader m) : Command → ExceptT CommandError m String
  | .reconcile text elements options => do
    let text ← readFile read text
    let items ← readItems read elements
    let layout ← readOptions read options
    let next ← diagramOr (DiagramBoard.reconcile { layout := layout } text items)
    return Json.indented 0 (.list (next.map Item.encode)) ++ "\n"
  | .describe elements compact => do
    let items := Item.listOfJson (← readJson read elements)
    return Board.describe compact (items.map (·.element))
  | .format text compact => do
    diagramOr (DiagramBoard.format compact (← readFile read text))

/-- Runs the program. -/
def run (read : FileReader m) (arguments : List String) : m Outcome :=
  match Command.parse? arguments with
  | none => return .refused
  | some command => do
    match ← (command.run read).run with
    | .ok text => return .printed text
    | .error e => return .failed e

/-- A run is refused exactly if the arguments ask for no command. -/
theorem refused_iff (read : FileReader Id) (arguments : List String) :
    run read arguments = Outcome.refused ↔ Command.parse? arguments = none := by
  unfold run
  cases h : Command.parse? arguments with
  | none => exact ⟨fun _ => rfl, fun _ => rfl⟩
  | some command =>
    simp only [reduceCtorEq, iff_false]
    intro hr
    simp only [bind, pure] at hr
    split at hr <;> simp at hr

end DiagramBoard.CommandLine
