/-
DiagramBoard.Json.Reader — JSON text to values.

A text is first cut into tokens; then the tokens are put together on a stack of open lists and
records.  At most 127 of them may be open at once.  A numeral without fraction and exponent is an
integer if it fits into 64 bits, signed or unsigned, and a scalar otherwise; minus zero is a scalar.
-/
import DiagramBoard.Json.Basic
import DiagramBoard.Text.Search

namespace DiagramBoard.Json

/-- What a JSON text is made of. -/
inductive Token
  | openList | closeList | openRecord | closeRecord | colon | comma
  | text (s : String)
  /-- Anything that is a value by itself and not a text. -/
  | value (v : Json Float)

/-! ## Texts -/

/-- The value of a hexadecimal digit. -/
def hexDigit? (c : Char) : Option Nat :=
  if c.isDigit then some (c.toNat - '0'.toNat)
  else if 'a' ≤ c && c ≤ 'f' then some (c.toNat - 'a'.toNat + 10)
  else if 'A' ≤ c && c ≤ 'F' then some (c.toNat - 'A'.toNat + 10)
  else none

/-- The value of four hexadecimal digits. -/
def hexUnit? (a b c d : Char) : Option Nat := do
  let w ← hexDigit? a
  let x ← hexDigit? b
  let y ← hexDigit? c
  let z ← hexDigit? d
  return ((w * 16 + x) * 16 + y) * 16 + z

/-- Units that stand for the first and for the second half of a character. -/
def isHighHalf (n : Nat) : Bool := 0xD800 ≤ n && n ≤ 0xDBFF

@[inherit_doc isHighHalf]
def isLowHalf (n : Nat) : Bool := 0xDC00 ≤ n && n ≤ 0xDFFF

/-- The character behind a backslash. -/
def escaped? : Char → Option Char
  | '"' => some '"'
  | '\\' => some '\\'
  | '/' => some '/'
  | 'b' => some '\x08'
  | 'f' => some '\x0c'
  | 'n' => some '\n'
  | 'r' => some '\r'
  | 't' => some '\t'
  | _ => none

/-- The characters up to the closing quote, and what follows it. -/
def readText : List Char → Option (List Char × List Char)
  | [] => none
  | '"' :: r => some ([], r)
  | '\\' :: 'u' :: a :: b :: c :: d :: '\\' :: 'u' :: e :: f :: g :: h :: r =>
    match hexUnit? a b c d, hexUnit? e f g h with
    | some hi, some lo =>
      if isHighHalf hi then
        if isLowHalf lo then
          let n := 0x10000 + (hi - 0xD800) * 0x400 + (lo - 0xDC00)
          (readText r).map fun p => (Char.ofNat n :: p.1, p.2)
        else none
      else if isLowHalf hi then none
      else
        (readText ('\\' :: 'u' :: e :: f :: g :: h :: r)).map fun p => (Char.ofNat hi :: p.1, p.2)
    | _, _ => none
  | '\\' :: 'u' :: a :: b :: c :: d :: r =>
    match hexUnit? a b c d with
    | some n =>
      if isHighHalf n || isLowHalf n then none
      else (readText r).map fun p => (Char.ofNat n :: p.1, p.2)
    | none => none
  | '\\' :: c :: r =>
    match escaped? c with
    | some e => (readText r).map fun p => (e :: p.1, p.2)
    | none => none
  | c :: r =>
    if c.toNat < 0x20 then none else (readText r).map fun p => (c :: p.1, p.2)

theorem length_of_readText {s w t : List Char} (h : readText s = some (w, t)) :
    t.length < s.length := by
  fun_induction readText s generalizing w t <;> simp_all <;> grind

/-! ## Numbers -/

/-- The value of decimal digits. -/
def digitsValue (digits : List Char) : Nat :=
  digits.foldl (fun n d => n * 10 + (d.toNat - '0'.toNat)) 0

/-- The nearest number to `mantissa · 10 ^ exponent`, if it is in range. -/
def nearest? (negative : Bool) (mantissa : Nat) (exponent : Int) : Option Float :=
  let magnitude := exponent + (Nat.log2 (mantissa + 1) / 3 + 1 : Nat)
  let x : Float :=
    if mantissa = 0 || magnitude < -400 then 0
    else if exponent < 0 then OfScientific.ofScientific mantissa true exponent.natAbs
    else OfScientific.ofScientific mantissa false exponent.toNat
  if mantissa ≠ 0 && exponent > 400 then none
  else if x.isFinite then some (if negative then -x else x)
  else none

/-- A numeral of digits only. -/
def integer? (negative : Bool) (n : Nat) : Option (Json Float) :=
  if negative then
    if 0 < n && n ≤ Nat.pow 2 63 then some (.int (-n)) else (nearest? true n 0).map .real
  else if n < Nat.pow 2 64 then some (.int n)
  else (nearest? false n 0).map .real

/-- The digits of an exponent with its sign, if the text has one. -/
def readExponent (s : List Char) : Option (Option Int × List Char) :=
  match s with
  | e :: r =>
    if e = 'e' || e = 'E' then
      let (negative, r) := match r with
        | '-' :: r => (true, r)
        | '+' :: r => (false, r)
        | r => (false, r)
      match r.takeWhile Char.isDigit with
      | [] => none
      | ds =>
        let n : Int := digitsValue ds
        some (some (if negative then -n else n), r.dropWhile Char.isDigit)
    else some (none, s)
  | [] => some (none, s)

/-- The digits of a fraction, if the text has one. -/
def readFraction (s : List Char) : Option (List Char × List Char) :=
  match s with
  | '.' :: r =>
    match r.takeWhile Char.isDigit with
    | [] => none
    | ds => some (ds, r.dropWhile Char.isDigit)
  | _ => some ([], s)

/-- The number of a numeral, from its parts. -/
def numeral? (negative : Bool) (whole fraction : List Char) (exponent : Option Int) :
    Option (Json Float) :=
  if fraction = [] && exponent = none then integer? negative (digitsValue whole)
  else (nearest? negative (digitsValue (whole ++ fraction))
    (exponent.getD 0 - fraction.length)).map .real

/-- A number, whose sign has been read. -/
def readNumber (negative : Bool) (s : List Char) : Option (Json Float × List Char) :=
  match Text.takeSome? Char.isDigit s with
  | none => none
  | some (whole, r) =>
    if whole.head? = some '0' && whole ≠ ['0'] then none
    else match readFraction r with
      | none => none
      | some (fraction, r) =>
        match readExponent r with
        | none => none
        | some (exponent, r) => (numeral? negative whole fraction exponent).map (·, r)

/-! ## Tokens -/

/-- The first token of a text that starts with neither a blank nor nothing. -/
def readToken (c : Char) (r : List Char) : Option (Token × List Char) :=
  match c with
  | '[' => some (.openList, r)
  | ']' => some (.closeList, r)
  | '{' => some (.openRecord, r)
  | '}' => some (.closeRecord, r)
  | ':' => some (.colon, r)
  | ',' => some (.comma, r)
  | '"' => (readText r).map fun p => (.text (String.ofList p.1), p.2)
  | '-' => (readNumber true r).map fun p => (.value p.1, p.2)
  | 'n' => ("ull".toList.isPrefixOf? r).map fun t => (.value .null, t)
  | 't' => ("rue".toList.isPrefixOf? r).map fun t => (.value (.bool true), t)
  | 'f' => ("alse".toList.isPrefixOf? r).map fun t => (.value (.bool false), t)
  | c => (readNumber false (c :: r)).map fun p => (.value p.1, p.2)

theorem length_of_readExponent {s t : List Char} {e : Option Int}
    (h : readExponent s = some (e, t)) : t.length ≤ s.length := by
  have := Text.length_dropWhile_le Char.isDigit
  unfold readExponent at h
  grind

theorem length_of_readFraction {s w t : List Char} (h : readFraction s = some (w, t)) :
    t.length ≤ s.length := by
  have := Text.length_dropWhile_le Char.isDigit
  unfold readFraction at h
  grind

theorem length_of_readNumber {b : Bool} {s t : List Char} {v : Json Float}
    (h : readNumber b s = some (v, t)) : t.length < s.length := by
  have hw := @Text.length_of_takeSome? Char.isDigit s
  have hf := @length_of_readFraction
  have he := @length_of_readExponent
  unfold readNumber at h
  grind [Option.map_eq_some_iff]

theorem length_of_readToken {c : Char} {r t : List Char} {k : Token}
    (h : readToken c r = some (k, t)) : t.length ≤ r.length := by
  have hx := @length_of_readText r
  have hn := fun b s v => @length_of_readNumber b s t v
  have hl := fun l => @Text.isPrefixOf?_eq_some l r t
  unfold readToken at h
  split at h <;> simp only [Option.map_eq_some_iff, Option.some.injEq, Prod.mk.injEq] at h <;>
    grind

/-- The tokens of a text. -/
def tokens (s : List Char) : Option (List Token) :=
  match s with
  | [] => some []
  | c :: r =>
    if c = ' ' || c = '\t' || c = '\n' || c = '\r' then tokens r
    else match h : readToken c r with
      | none => none
      | some (t, rest) =>
        have := length_of_readToken h
        (tokens rest).map (t :: ·)
termination_by s.length

/-! ## Values -/

/-- A list or record that is still open, its parts in reverse. -/
inductive Frame
  | list (items : List (Json Float))
  | record (fields : List (String × Json Float)) (name : String)

/-- What may come next. -/
inductive Expect
  /-- A value. -/
  | value
  /-- A value, or the end of the list just opened. -/
  | firstItem
  /-- A name, or the end of the record just opened. -/
  | firstName (fields : List (String × Json Float))
  /-- A name. -/
  | name (fields : List (String × Json Float))
  /-- The colon behind a name. -/
  | colon (fields : List (String × Json Float)) (name : String)
  /-- A comma or an end, behind a value. -/
  | next (v : Json Float)

/-- The most lists and records that may be open at once. -/
def maxDepth : Nat := 127

/-- Reads tokens onto a stack of open lists and records. -/
def build : Expect → List Frame → List Token → Option (Json Float)
  | .next v, [], [] => some v
  | .next v, .list items :: st, .comma :: ts => build .value (.list (v :: items) :: st) ts
  | .next v, .list items :: st, .closeList :: ts =>
    build (.next (.list (v :: items).reverse)) st ts
  | .next v, .record fields name :: st, .comma :: ts => build (.name ((name, v) :: fields)) st ts
  | .next v, .record fields name :: st, .closeRecord :: ts =>
    build (.next (.record (Fields.ofList ((name, v) :: fields).reverse))) st ts
  | .firstItem, .list [] :: st, .closeList :: ts => build (.next (.list [])) st ts
  | .firstName [], st, .closeRecord :: ts => build (.next (.record [])) st ts
  | .firstName fields, st, .text s :: ts => build (.colon fields s) st ts
  | .name fields, st, .text s :: ts => build (.colon fields s) st ts
  | .colon fields s, st, .colon :: ts => build .value (.record fields s :: st) ts
  | .value, st, t :: ts | .firstItem, st, t :: ts =>
    match t with
    | .text s => build (.next (.text s)) st ts
    | .value v => build (.next v) st ts
    | .openList => if st.length < maxDepth then build .firstItem (.list [] :: st) ts else none
    | .openRecord => if st.length < maxDepth then build (.firstName []) st ts else none
    | _ => none
  | _, _, _ => none

/-- The value that a text is, if it is one. -/
def read? (s : String) : Option (Json Float) := do
  build .value [] (← tokens s.toList)

end DiagramBoard.Json
