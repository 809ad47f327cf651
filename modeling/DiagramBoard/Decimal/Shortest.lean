/-
DiagramBoard.Decimal.Shortest — the decimal of a binary64 number with the fewest digits.

A positive double stands for all reals that round to it, an interval around it.  A decimal with `n`
digits lies on a grid; the number's two neighbours on that grid are tried for 1, 2, … 17 digits, and
the first grid with a neighbour inside the interval gives the digits.  Of two neighbours inside, the
nearer one is taken, and the even one of two equally near.  All of it is exact arithmetic on natural
numbers.
-/

namespace DiagramBoard.Decimal

/-- A positive number `mantissa · 2 ^ exponent`, with a gap below it of half the gap above or of the
same size. -/
structure Binary where
  mantissa : Nat
  exponent : Int
  narrowBelow : Bool

/-- A decimal `digits · 10 ^ exponent`. -/
structure Scientific where
  digits : Nat
  exponent : Int
deriving DecidableEq, Repr

/-- The magnitude of a finite double, unless it is zero. -/
def Binary.ofFloat? (x : Float) : Option Binary :=
  let bits := x.toBits.toNat
  let fraction : Nat := bits % Nat.pow 2 52
  let biased : Nat := bits / Nat.pow 2 52 % Nat.pow 2 11
  if biased = 0 then
    if fraction = 0 then none else some ⟨fraction, (-1074 : Int), false⟩
  else some ⟨Nat.pow 2 52 + fraction, (biased : Int) - 1075, fraction = 0 && 1 < biased⟩

/-- The numerators, over one denominator, of a number and of the ends of its interval, in units of
`10 ^ k`. -/
structure Scaled where
  low : Nat
  value : Nat
  high : Nat
  denominator : Nat

/-- A number in units of `10 ^ k`. -/
def Binary.scale (b : Binary) (k : Int) : Scaled :=
  let up := Nat.pow 2 (b.exponent - 2).toNat * Nat.pow 10 (-k).toNat
  { low := (4 * b.mantissa - if b.narrowBelow then 1 else 2) * up
    value := 4 * b.mantissa * up
    high := (4 * b.mantissa + 2) * up
    denominator := Nat.pow 2 (2 - b.exponent).toNat * Nat.pow 10 k.toNat }

/-- Whether `10 ^ k` is at most the number. -/
def Binary.reaches (b : Binary) (k : Int) : Bool :=
  let s := b.scale k
  s.denominator ≤ s.value

/-- The exponent of the number's first decimal digit. -/
def Binary.magnitude (b : Binary) : Int :=
  let estimate := (Nat.log2 b.mantissa + b.exponent) * 30103 / 100000
  if b.reaches (estimate + 1) then estimate + 1
  else if b.reaches estimate then estimate
  else estimate - 1

/-- The decimal in units of `10 ^ k` inside the number's interval, if there is one. -/
def Binary.onGrid? (b : Binary) (k : Int) : Option Scientific :=
  let s := b.scale k
  let closed := b.mantissa % 2 = 0
  let inside (c : Nat) : Bool :=
    let p := c * s.denominator
    if closed then s.low ≤ p && p ≤ s.high else s.low < p && p < s.high
  let below := s.value / s.denominator
  let rest := s.value % s.denominator
  let belowFirst := 2 * rest < s.denominator || (2 * rest = s.denominator && below % 2 = 0)
  match inside below, inside (below + 1) with
  | true, true => some ⟨if belowFirst then below else below + 1, k⟩
  | true, false => some ⟨below, k⟩
  | false, true => some ⟨below + 1, k⟩
  | false, false => none

/-- The decimal with the fewest digits, from `n` up to 17, that rounds to the number. -/
def Binary.shortestFrom (b : Binary) (magnitude : Int) : Nat → Nat → Scientific
  | _, 0 => ⟨b.mantissa, 0⟩
  | n, left + 1 =>
    match b.onGrid? (magnitude - n) with
    | some d => d
    | none => b.shortestFrom magnitude (n + 1) left

/-- The decimal with the fewest digits that rounds to the number. -/
def Binary.shortest (b : Binary) : Scientific :=
  b.shortestFrom b.magnitude 0 17

/-! ## Writing it -/

/-- How a decimal is laid out: from which power of ten on, and up to which, the point is written in
place, and the text behind whole numbers. -/
structure Layout where
  firstPositional : Int
  firstScientific : Int

/-- Numbers from 0.00001 up to below 10^16 have their point in place. -/
def jsonLayout : Layout := ⟨-5, 16⟩

/-- Digits without the zeros at their end. -/
def significant (digits : List Char) : List Char :=
  match (digits.reverse.dropWhile (· = '0')).reverse with
  | [] => ['0']
  | ds => ds

/-- A decimal as text. -/
def Scientific.render (layout : Layout) (d : Scientific) : List Char :=
  let all := Nat.toDigits 10 d.digits
  let ds := significant all
  let power : Int := d.exponent + (all.length : Nat) - 1
  if layout.firstPositional ≤ power && power < layout.firstScientific then
    if power < 0 then
      "0.".toList ++ List.replicate (-power - 1).toNat '0' ++ ds
    else
      let whole := power.toNat + 1
      let padded := ds ++ List.replicate (whole - ds.length) '0'
      match padded.drop whole with
      | [] => padded ++ ".0".toList
      | fraction => padded.take whole ++ '.' :: fraction
  else
    let mantissa := match ds with
      | [] => []
      | [c] => [c]
      | c :: r => c :: '.' :: r
    let mark := if power < 0 then "e-".toList else "e+".toList
    mantissa ++ mark ++ Nat.toDigits 10 power.natAbs

/-- A finite double as text, with the fewest digits that read back to it. -/
def renderFloat (layout : Layout) (x : Float) : List Char :=
  let negative := x.toBits.toNat / Nat.pow 2 63 = 1
  let magnitude := match Binary.ofFloat? x with
    | none => "0.0".toList
    | some b => b.shortest.render layout
  if negative then '-' :: magnitude else magnitude

end DiagramBoard.Decimal
