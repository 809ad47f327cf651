/-
DiagramBoard.SyntaxError — why a text is no diagram.

There are four causes, each with the piece of text to blame, and a line number where one is known.
-/

namespace DiagramBoard

/-- What is wrong with a line. -/
inductive SyntaxFault
  /-- The first word selects no grammar. -/
  | unknownKind (word : List Char)
  /-- The word behind the first one is no direction. -/
  | unknownDirection (word : List Char)
  /-- A statement is followed by something else. -/
  | unexpected (rest : List Char)
  /-- A line is no statement. -/
  | unreadable (line : List Char)
  /-- Any other fault, in its own words. -/
  | other (message : String)
deriving DecidableEq, Repr

/-- A fault and its line, counted from one. -/
structure SyntaxError where
  line : Option Nat
  fault : SyntaxFault
deriving DecidableEq, Repr

/-- The start of a text, short enough for a message. -/
def snippet (s : List Char) : String :=
  if 40 < s.length then String.ofList (s.take 40 ++ "...".toList) else String.ofList s

/-- A fault in words. -/
def SyntaxFault.message : SyntaxFault → String
  | unknownKind word => "unknown diagram type: " ++ snippet word
  | unknownDirection word => "unknown direction `" ++ snippet word ++ "`"
  | unexpected rest => "unexpected `" ++ snippet rest ++ "`"
  | unreadable line => "cannot read `" ++ snippet line ++ "` as nodes or edges"
  | other message => message

/-- An error in words. -/
def SyntaxError.message (e : SyntaxError) : String :=
  let place := match e.line with
    | none => ""
    | some n => " at line " ++ toString n
  "diagram syntax error" ++ place ++ ": " ++ e.fault.message

end DiagramBoard
