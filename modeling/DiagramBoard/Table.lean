/-
DiagramBoard.Table — values under names, the last one put under a name counting.

Main statements: what was put under a name is found there (`get?_put_self`), and nothing else
changes (`get?_put_of_ne`); the same for one value under several names (`get?_putAll`).
-/

namespace DiagramBoard

/-- Values under names, each name once. -/
structure Table (β : Type) where
  entries : List (String × β) := []
deriving Repr, Inhabited

namespace Table

variable {β : Type}

/-- The value under a name. -/
def get? (t : Table β) (name : String) : Option β := t.entries.lookup name

/-- The table with a value under a name. -/
def put (t : Table β) (name : String) (value : β) : Table β :=
  ⟨(name, value) :: t.entries.filter fun e => e.1 ≠ name⟩

/-- The table with one value under several names. -/
def putAll (t : Table β) (names : List String) (value : β) : Table β :=
  names.foldl (fun t name => t.put name value) t

/-- The number of names. -/
def size (t : Table β) : Nat := t.entries.length

@[simp] theorem get?_empty (name : String) : get? ({} : Table β) name = none := rfl

/-- What was put under a name is found there. -/
@[simp] theorem get?_put_self (t : Table β) (name : String) (value : β) :
    (t.put name value).get? name = some value := by
  simp [get?, put]

theorem lookup_filter_of_ne {name other : String} (h : other ≠ name)
    (entries : List (String × β)) :
    (entries.filter fun e => e.1 ≠ name).lookup other = entries.lookup other := by
  induction entries with
  | nil => rfl
  | cons e r ih =>
    obtain ⟨k, v⟩ := e
    by_cases hk : k = name
    · subst hk
      have : (other == k) = false := by simpa using h
      simpa [List.lookup_cons, this] using ih
    · by_cases ho : other = k
      · subst ho
        simp [hk]
      · have : (other == k) = false := by simpa using ho
        simpa [List.lookup_cons, hk, this] using ih

/-- Putting a value under a name leaves the other names alone. -/
theorem get?_put_of_ne {name other : String} (h : other ≠ name) (t : Table β) (value : β) :
    (t.put name value).get? other = t.get? other := by
  have hb : (other == name) = false := by simpa using h
  simpa [get?, put, List.lookup_cons, hb] using lookup_filter_of_ne h t.entries

/-- After one value was put under several names, each of them has it and no other is changed. -/
theorem get?_putAll (t : Table β) (names : List String) (value : β) (other : String) :
    (t.putAll names value).get? other = if other ∈ names then some value else t.get? other := by
  induction names generalizing t with
  | nil => simp [putAll]
  | cons name names ih =>
    rw [putAll, List.foldl_cons, ← putAll, ih]
    by_cases h : other = name
    · simp [h]
    · simp [h, get?_put_of_ne h]

end Table

end DiagramBoard
