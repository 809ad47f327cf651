/-
DiagramBoard.Board.Refresh — redrawing an element that is on the board already.

What somebody may have changed by hand stays: colours, fills, fonts, rotation, locks, other fields,
and what is bound to the element without being managed.  The line of an arrow follows the diagram.
The version moves on only if something else has changed.

Main statement: but for its version, an element that is redrawn is what is kept of it
(`refresh_eq`).
-/
import DiagramBoard.Board.DerivedId
import DiagramBoard.Board.Element

namespace DiagramBoard.Element

variable {α : Type}

/-- What belongs to an old element, is not managed and is missing in the new one. -/
def foreignBound (managed : List String) (old fresh : Element α) : List BoundElement :=
  (old.boundElements.getD []).filter fun b =>
    !managed.contains b.id && (fresh.boundElements.getD []).all (·.id ≠ b.id)

/-- The new element with the other fields of the old one's metadata. -/
def keepMetadata (old fresh : Element α) : Option (Metadata α) :=
  match old.metadata, fresh.metadata with
  | some o, some f => some { f with extra := o.extra.override f.extra }
  | _, m => m

/-- The new element with all that stays of the old one. -/
def keep (managed : List String) (old fresh : Element α) : Element α :=
  let isArrow : Bool := fresh.kind = .arrow
  let foreign := foreignBound managed old fresh
  { fresh with
    strokeColor := old.strokeColor.or fresh.strokeColor
    backgroundColor := old.backgroundColor.or fresh.backgroundColor
    fillStyle := old.fillStyle.or fresh.fillStyle
    strokeWidth := if isArrow then fresh.strokeWidth else old.strokeWidth.or fresh.strokeWidth
    strokeStyle := if isArrow then fresh.strokeStyle else old.strokeStyle.or fresh.strokeStyle
    roughness := old.roughness.or fresh.roughness
    opacity := old.opacity.or fresh.opacity
    fontFamily := old.fontFamily.or fresh.fontFamily
    angle := old.angle
    locked := old.locked || fresh.locked
    seed := old.seed.or fresh.seed
    version := old.version
    versionNonce := old.versionNonce
    extra := old.extra.override fresh.extra
    metadata := keepMetadata old fresh
    boundElements :=
      if foreign.isEmpty then fresh.boundElements
      else some (fresh.boundElements.getD [] ++ foreign) }

/-- An element with its next version, which is 0 after the largest one. -/
def bump (e : Element α) : Element α :=
  let next := e.version.getD 1 + 1
  { e with
    version := some next
    versionNonce := some (Board.derivedSeed e.id ("v" ++ toString next)) }

variable [Scalar α]

/-- An element drawn anew. -/
def refresh (managed : List String) (old fresh : Element α) : Element α :=
  let kept := keep managed old fresh
  if kept == old then kept else kept.bump

/-- But for its version, a redrawn element is what is kept. -/
theorem refresh_eq (managed : List String) (old fresh : Element α) : ∃ version nonce,
    refresh managed old fresh
      = { keep managed old fresh with version := version, versionNonce := nonce } := by
  unfold refresh
  simp only
  split
  · exact ⟨_, _, rfl⟩
  · exact ⟨_, _, rfl⟩

end DiagramBoard.Element
