/-
DiagramBoard.Board.Managed — which elements of a board belong to its diagram.

An element is managed if its metadata say what it shows, or if it is a text inside such an element.
All others were put on the board by somebody, and are nobody's business.

Main statement: an element is managed exactly if its metadata say so for an element of its id, or an
element of its id is a text inside a marked one (`mem_managedIds`).
-/
import DiagramBoard.Board.Element

namespace DiagramBoard.Board

variable {α : Type}

/-- The ids of the elements whose metadata say what they show. -/
def markedIds (elements : List (Element α)) : List String :=
  (elements.filter (·.carriesIdentity)).map (·.id)

/-- Whether an element is a text inside one of some elements. -/
def isTextIn (ids : List String) (e : Element α) : Bool :=
  e.kind = .text && e.containerId.any ids.contains

/-- The ids of all elements that are managed. -/
def managedIds (elements : List (Element α)) : List String :=
  markedIds elements ++ (elements.filter (isTextIn (markedIds elements))).map (·.id)

/-- An id is managed exactly if it is that of a marked element or of a text inside one. -/
theorem mem_managedIds {elements : List (Element α)} {id : String} :
    id ∈ managedIds elements ↔
      ∃ e ∈ elements, e.id = id
        ∧ (e.carriesIdentity = true ∨ isTextIn (markedIds elements) e = true) := by
  simp only [managedIds, List.mem_append, List.mem_map, List.mem_filter, markedIds]
  constructor
  · rintro (⟨e, ⟨he, hc⟩, rfl⟩ | ⟨e, ⟨he, hc⟩, rfl⟩)
    · exact ⟨e, he, rfl, .inl hc⟩
    · exact ⟨e, he, rfl, .inr hc⟩
  · rintro ⟨e, he, rfl, hc | hc⟩
    · exact .inl ⟨e, ⟨he, hc⟩, rfl⟩
    · exact .inr ⟨e, ⟨he, hc⟩, rfl⟩

end DiagramBoard.Board
