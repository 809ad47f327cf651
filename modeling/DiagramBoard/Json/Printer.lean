/-
DiagramBoard.Json.Printer — JSON values to text, on one line or indented.

Fields are written in the order they are held.  Inside a text the double quote, the backslash and
the control characters are escaped and nothing else is.
-/
import DiagramBoard.Decimal.Shortest
import DiagramBoard.Json.Basic

namespace DiagramBoard.Json

/-- A hexadecimal digit. -/
def hexDigit (n : Nat) : Char := "0123456789abcdef".toList.getD n '0'

/-- A character inside quotes. -/
def escapeChar (c : Char) : List Char :=
  if c = '"' then ['\\', '"']
  else if c = '\\' then ['\\', '\\']
  else if c = '\n' then ['\\', 'n']
  else if c = '\r' then ['\\', 'r']
  else if c = '\t' then ['\\', 't']
  else if c = '\x08' then ['\\', 'b']
  else if c = '\x0c' then ['\\', 'f']
  else if c.toNat < 0x20 then
    ['\\', 'u', '0', '0', hexDigit (c.toNat / 16), hexDigit (c.toNat % 16)]
  else [c]

/-- A text in quotes. -/
def quote (s : String) : String :=
  "\"" ++ String.ofList (s.toList.flatMap escapeChar) ++ "\""

/-- A number, or null where it is not finite. -/
def renderNumber (x : Float) : String :=
  if x.isFinite then String.ofList (Decimal.renderFloat Decimal.jsonLayout x) else "null"

/-- Values that are neither lists nor records. -/
def renderLeaf : Json Float → String
  | .null => "null"
  | .bool true => "true"
  | .bool false => "false"
  | .int n => toString n
  | .real x => renderNumber x
  | .text s => quote s
  | .list _ => "[]"
  | .record _ => "\x7b\x7d"

mutual

/-- A value on one line. -/
def compact : Json Float → String
  | .list items => "[" ++ compactItems items ++ "]"
  | .record fields => "\x7b" ++ compactFields fields ++ "\x7d"
  | v => renderLeaf v

/-- The items of a list on one line. -/
def compactItems : List (Json Float) → String
  | [] => ""
  | [v] => compact v
  | v :: r => compact v ++ "," ++ compactItems r

/-- The fields of a record on one line. -/
def compactFields : List (String × Json Float) → String
  | [] => ""
  | [(k, v)] => quote k ++ ":" ++ compact v
  | (k, v) :: r => quote k ++ ":" ++ compact v ++ "," ++ compactFields r

end

/-- The start of a line, two spaces for each open list or record. -/
def newLine (depth : Nat) : String := "\n" ++ String.ofList (List.replicate (2 * depth) ' ')

mutual

/-- A value on lines of its own, `depth` lists or records being open. -/
def indented (depth : Nat) : Json Float → String
  | .list (v :: r) => "[" ++ indentedItems (depth + 1) (v :: r) ++ newLine depth ++ "]"
  | .record (f :: r) => "\x7b" ++ indentedFields (depth + 1) (f :: r) ++ newLine depth ++ "\x7d"
  | v => renderLeaf v

/-- The items of a list, each on a line. -/
def indentedItems (depth : Nat) : List (Json Float) → String
  | [] => ""
  | [v] => newLine depth ++ indented depth v
  | v :: r => newLine depth ++ indented depth v ++ "," ++ indentedItems depth r

/-- The fields of a record, each on a line. -/
def indentedFields (depth : Nat) : List (String × Json Float) → String
  | [] => ""
  | [(k, v)] => newLine depth ++ quote k ++ ": " ++ indented depth v
  | (k, v) :: r =>
    newLine depth ++ quote k ++ ": " ++ indented depth v ++ "," ++ indentedFields depth r

end

end DiagramBoard.Json
