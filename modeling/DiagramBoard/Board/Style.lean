/-
DiagramBoard.Board.Style — how things look on a board where nothing else is asked for.

A board's own style is read off its containers: of every field the value that most of them have,
the earliest one where several are as frequent.  Fonts are not read off.

Main statement: no value of a list occurs more often than its most frequent one
(`count_le_count_mostFrequent`).
-/
import DiagramBoard.Board.Element
import DiagramBoard.Json.Decode

namespace DiagramBoard

/-- The style of a board. -/
structure BoardStyle (α : Type) where
  strokeColor : String
  backgroundColor : String
  fillStyle : FillStyle
  strokeWidth : α
  strokeStyle : StrokeStyle
  roughness : α
  opacity : α
  fontSize : α
  fontFamily : Nat
deriving BEq, Repr

/-! ## The most frequent value -/

namespace BoardStyle

section MostFrequent

variable {β : Type} [BEq β]

/-- The better of two values of a list: the second one if it is the more frequent. -/
def moreFrequent (values : List β) : Option β → β → Option β
  | none, b => some b
  | some a, b => if values.count a < values.count b then some b else some a

/-- The most frequent value of a list, the first one of several. -/
def mostFrequent? (values : List β) : Option β :=
  values.foldl (moreFrequent values) none

theorem count_le_of_foldl {values rest : List β} {best : Option β} {b : β}
    (h : rest.foldl (moreFrequent values) best = some b) :
    (∀ a ∈ best, values.count a ≤ values.count b)
      ∧ ∀ a ∈ rest, values.count a ≤ values.count b := by
  induction rest generalizing best with
  | nil => simp_all
  | cons c rest ih =>
    obtain ⟨hbest, hrest⟩ := ih h
    cases best with
    | none => simp_all [moreFrequent]
    | some a =>
      simp only [moreFrequent, Option.mem_def] at hbest
      split at hbest
      · have := hbest c rfl
        simp only [Option.mem_def, Option.some.injEq, forall_eq', List.mem_cons, forall_eq_or_imp]
        exact ⟨by omega, this, hrest⟩
      · have := hbest a rfl
        simp only [Option.mem_def, Option.some.injEq, forall_eq', List.mem_cons, forall_eq_or_imp]
        exact ⟨this, by omega, hrest⟩

/-- No value of a list occurs more often than its most frequent one. -/
theorem count_le_count_mostFrequent {values : List β} {b : β} (h : mostFrequent? values = some b) :
    ∀ a ∈ values, values.count a ≤ values.count b :=
  (count_le_of_foldl h).2

end MostFrequent

/-! ## Styles -/

variable {α : Type} [Scalar α]

/-- The style of a board that says nothing. -/
def standard : BoardStyle α :=
  { strokeColor := "#1e1e1e"
    backgroundColor := "transparent"
    fillStyle := .hachure
    strokeWidth := 2
    strokeStyle := .solid
    roughness := 1
    opacity := 100
    fontSize := 20
    fontFamily := 1 }

instance : Inhabited (BoardStyle α) := ⟨standard⟩

/-- The style that most containers of a board have. -/
def infer (elements : List (Element α)) : BoardStyle α :=
  let containers := elements.filter fun e => !e.isDeleted && e.kind.isContainer
  let usual {β : Type} [BEq β] (field : Element α → Option β) (otherwise : β) : β :=
    (mostFrequent? (containers.filterMap field)).getD otherwise
  let plain : BoardStyle α := standard
  { plain with
    strokeColor := usual (·.strokeColor) plain.strokeColor
    backgroundColor := usual (·.backgroundColor) plain.backgroundColor
    fillStyle := usual (fun e => e.fillStyle.bind FillStyle.ofName?) plain.fillStyle
    strokeWidth := usual (·.strokeWidth) plain.strokeWidth
    strokeStyle := usual (fun e => e.strokeStyle.bind StrokeStyle.ofName?) plain.strokeStyle
    roughness := usual (·.roughness) plain.roughness
    opacity := usual (·.opacity) plain.opacity }

/-! ## As JSON -/

open Json Json.Fields

/-- A style; what is missing is as in the standard one. -/
def decode? (v : Json α) : Option (BoardStyle α) := do
  let f ← fields? ["strokeColor", "backgroundColor", "fillStyle", "strokeWidth", "strokeStyle",
    "roughness", "opacity", "fontSize", "fontFamily"] 0 v
  let plain : BoardStyle α := standard
  return { strokeColor := ← f.defaulted? text? plain.strokeColor "strokeColor"
           backgroundColor := ← f.defaulted? text? plain.backgroundColor "backgroundColor"
           fillStyle := ← f.defaulted? (named? FillStyle.ofName?) plain.fillStyle "fillStyle"
           strokeWidth := ← f.defaulted? scalar? plain.strokeWidth "strokeWidth"
           strokeStyle := ← f.defaulted? (named? StrokeStyle.ofName?) plain.strokeStyle
             "strokeStyle"
           roughness := ← f.defaulted? scalar? plain.roughness "roughness"
           opacity := ← f.defaulted? scalar? plain.opacity "opacity"
           fontSize := ← f.defaulted? scalar? plain.fontSize "fontSize"
           fontFamily := ← f.defaulted? word32? plain.fontFamily "fontFamily" }

/-- A style as JSON. -/
def encode (s : BoardStyle α) : Json α :=
  .record [("strokeColor", .text s.strokeColor), ("backgroundColor", .text s.backgroundColor),
    ("fillStyle", .text s.fillStyle.name), ("strokeWidth", ofScalar s.strokeWidth),
    ("strokeStyle", .text s.strokeStyle.name), ("roughness", ofScalar s.roughness),
    ("opacity", ofScalar s.opacity), ("fontSize", ofScalar s.fontSize),
    ("fontFamily", .int s.fontFamily)]

end BoardStyle

end DiagramBoard
