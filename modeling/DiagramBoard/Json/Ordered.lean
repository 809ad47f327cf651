/-
DiagramBoard.Json.Ordered — JSON values with the fields of every record in the order of their names.

Main statement: the names of an ordered record go up (`pairwise_ofList`), so that each occurs once.
-/
import DiagramBoard.Json.Basic

namespace DiagramBoard.Json

variable {α : Type}

mutual

/-- A value with all its records in order. -/
def ordered : Json α → Json α
  | .list items => .list (orderedItems items)
  | .record fields => .record (Fields.ofList (orderedFields fields))
  | v => v

/-- A list of values with all their records in order. -/
def orderedItems : List (Json α) → List (Json α)
  | [] => []
  | v :: r => ordered v :: orderedItems r

/-- Fields with all records in their values in order. -/
def orderedFields : List (String × Json α) → List (String × Json α)
  | [] => []
  | (name, v) :: r => (name, ordered v) :: orderedFields r

end

namespace Fields

/-- Whether the names of some fields go up. -/
def IsOrdered (fields : Fields α) : Prop := fields.Pairwise fun f g => f.1 < g.1

theorem fst_of_mem_insert {name : String} {value : Json α} {fields : Fields α}
    {f : String × Json α} (h : f ∈ insert name value fields) : f.1 = name ∨ f ∈ fields := by
  induction fields with
  | nil => simp_all [insert]
  | cons g r ih =>
    rw [insert] at h
    split at h
    · rcases List.mem_cons.1 h with rfl | h
      · exact .inl rfl
      · exact .inr h
    · split at h
      · rcases List.mem_cons.1 h with rfl | h
        · exact .inl rfl
        · exact .inr (List.mem_cons_of_mem _ h)
      · rcases List.mem_cons.1 h with rfl | h
        · exact .inr List.mem_cons_self
        · exact (ih h).imp_right (List.mem_cons_of_mem _)

/-- Putting a value under a name keeps fields in order. -/
theorem isOrdered_insert {fields : Fields α} (h : fields.IsOrdered) (name : String)
    (value : Json α) : (insert name value fields).IsOrdered := by
  induction fields with
  | nil => simp [insert, IsOrdered]
  | cons g r ih =>
    obtain ⟨hg, hr⟩ := List.pairwise_cons.1 h
    rw [insert]
    split
    · rename_i hlt
      refine List.pairwise_cons.2 ⟨fun f hf => ?_, h⟩
      rcases List.mem_cons.1 hf with rfl | hf
      · exact hlt
      · exact String.lt_trans hlt (hg f hf)
    · split
      · rename_i heq
        exact List.pairwise_cons.2 ⟨fun f hf => by simpa [heq] using hg f hf, hr⟩
      · rename_i hlt hne
        refine List.pairwise_cons.2 ⟨fun f hf => ?_, ih hr⟩
        rcases fst_of_mem_insert hf with hf | hf
        · rw [hf]
          exact Std.lt_of_le_of_ne (String.not_lt.1 hlt) (Ne.symm hne)
        · exact hg f hf

/-- The names of an ordered record go up. -/
theorem pairwise_ofList (fields : List (String × Json α)) : (ofList fields).IsOrdered := by
  suffices h : ∀ acc : Fields α, acc.IsOrdered →
      (fields.foldl (fun acc f => acc.insert f.1 f.2) acc).IsOrdered from
    h [] List.Pairwise.nil
  induction fields with
  | nil => exact fun _ h => h
  | cons f r ih => exact fun acc h => ih _ (isOrdered_insert h f.1 f.2)

end Fields

end DiagramBoard.Json
