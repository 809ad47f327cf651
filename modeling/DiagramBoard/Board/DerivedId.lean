/-
DiagramBoard.Board.DerivedId — ids and seeds of drawn elements, made of what they stand for.

An element's id is the hash of its role and of the id it has in the diagram, so that drawing the
same node twice gives the same element.  The hash is FNV-1a with 64 bits over the bytes of the
parts, each part followed by a zero byte.

Main statement: an id has sixteen hexadecimal digits (`length_derivedId`).
-/

namespace DiagramBoard.Board

/-- The hash of no bytes. -/
def hashBasis : UInt64 := 0xCBF29CE484222325

/-- The factor between two bytes of the hash. -/
def hashPrime : UInt64 := 0x00000100000001B3

/-- The hash with one more byte. -/
def hashByte (h : UInt64) (byte : UInt8) : UInt64 := (h ^^^ byte.toUInt64) * hashPrime

/-- The hash of some texts, each ended by a zero byte. -/
def hashParts (parts : List String) : UInt64 :=
  (parts.flatMap fun p => p.toUTF8.data.toList ++ [0]).foldl hashByte hashBasis

/-- The hexadecimal digit of a number below sixteen. -/
def hexDigit (n : Nat) : Char :=
  if n < 10 then Char.ofNat ('0'.toNat + n) else Char.ofNat ('a'.toNat + (n - 10))

/-- The last `count` hexadecimal digits of a number. -/
def hexDigits : Nat → Nat → List Char
  | 0, _ => []
  | count + 1, n => hexDigits count (n / 16) ++ [hexDigit (n % 16)]

/-- The element id for a role and an id of the diagram. -/
def derivedId (role id : String) : String :=
  String.ofList (hexDigits 16 (hashParts [role, id]).toNat)

/-- The seed of an element for a purpose, in the range that boards use. -/
def derivedSeed (elementId purpose : String) : Nat :=
  (hashParts [elementId, purpose]).toNat % 2000000000

theorem length_hexDigits (count n : Nat) : (hexDigits count n).length = count := by
  induction count generalizing n with
  | zero => rfl
  | succ count ih => simp [hexDigits, ih]

/-- An id has sixteen digits. -/
theorem length_derivedId (role id : String) : (derivedId role id).toList.length = 16 := by
  simp [derivedId, length_hexDigits]

end DiagramBoard.Board
