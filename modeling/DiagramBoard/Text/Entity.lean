/-
DiagramBoard.Text.Entity — the two entities that keep quotes out of quoted labels.

`#quot;` stands for a double quote and `#35;` for a number sign.  Any other number sign stands for
itself, so every text can be decoded.

Main statement: decoding inverts encoding (`decode_encode`).
-/
import DiagramBoard.Text.Search

namespace DiagramBoard.Text.Entity

/-- How a character is written inside quotes. -/
def encodeChar (c : Char) : List Char :=
  if c = '#' then "#35;".toList else if c = '"' then "#quot;".toList else [c]

/-- A text with its number signs and double quotes written as entities. -/
def encode (s : List Char) : List Char := s.flatMap encodeChar

/-- A text with its entities read. -/
def decode : List Char → List Char
  | '#' :: 'q' :: 'u' :: 'o' :: 't' :: ';' :: r => '"' :: decode r
  | '#' :: '3' :: '5' :: ';' :: r => '#' :: decode r
  | c :: r => c :: decode r
  | [] => []

@[simp] theorem encode_nil : encode [] = [] := rfl

@[simp] theorem encode_cons (c : Char) (s : List Char) :
    encode (c :: s) = encodeChar c ++ encode s := rfl

theorem decode_cons_of_ne {c : Char} (h : c ≠ '#') (s : List Char) :
    decode (c :: s) = c :: decode s := by
  rw [decode]
  · rintro r rfl; exact absurd rfl h
  · rintro r rfl; exact absurd rfl h

/-- Decoding inverts encoding. -/
@[simp] theorem decode_encode (s : List Char) : decode (encode s) = s := by
  induction s with
  | nil => rfl
  | cons c s ih =>
    rw [encode_cons, encodeChar]
    split
    · rename_i h
      simp [h, decode, ih]
    · split
      · rename_i h
        simp [h, decode, ih]
      · rename_i h _
        simp [decode_cons_of_ne h, ih]

end DiagramBoard.Text.Entity
