/-
DiagramBoard.Proofs.Text.Entities — what is written with entities can stand in quotes and is read
back from there.

A text is written in two passes, the number signs first and the double quotes second, and read in
one.  The second pass writes number signs of its own, which the first one must not see any more: the
other way round a double quote would not come back (`not_isQuoting_swapped`).  In reading, a number
sign that starts no entity stands for itself, so more can be read than is ever written.

Main statements: the two passes write each character by itself (`encode_eq_replace`); an encoded text
is read the same whatever follows it (`decode_encode_append`); which texts are encoded ones
(`exists_encode_eq_iff`); and encoding can be undone, leaves no double quote, and neither adds nor
takes line feeds and blanks at the ends (`isQuoting_encode`).
-/
import DiagramBoard.Proofs.Text.Whole

namespace DiagramBoard.Text.Entity

/-! ## Two passes -/

/-- A text with another text in the place of every occurrence of a character. -/
def replace (c : Char) (w s : List Char) : List Char := s.flatMap fun d => if d = c then w else [d]

theorem replace_of_notMem {c : Char} {s : List Char} (h : c ∉ s) (w : List Char) :
    replace c w s = s := by
  have hone : ∀ d ∈ s, (if d = c then w else [d]) = [d] := by
    intro d hd
    refine if_neg ?_
    rintro rfl
    exact h hd
  rw [replace, List.flatMap_congr hone]
  exact List.flatMap_singleton' s

/-- A text is encoded by replacing first its number signs and then its double quotes. -/
theorem encode_eq_replace (s : List Char) :
    encode s = replace '"' "#quot;".toList (replace '#' "#35;".toList s) := by
  have hassoc : replace '"' "#quot;".toList (replace '#' "#35;".toList s)
      = s.flatMap fun d => replace '"' "#quot;".toList (if d = '#' then "#35;".toList else [d]) :=
    List.flatMap_assoc
  rw [hassoc, encode]
  refine List.flatMap_congr fun d _ => ?_
  unfold encodeChar
  split
  · -- the first pass writes no double quote
    exact (replace_of_notMem (by decide) _).symm
  · simp [replace]

/-! ## Reading -/

theorem decode_encodeChar_append (c : Char) (t : List Char) :
    decode (encodeChar c ++ t) = c :: decode t := by
  unfold encodeChar
  split
  · next h =>
    rw [h]
    rfl
  · next hsign =>
    split
    · next h =>
      rw [h]
      rfl
    · exact decode_cons_of_ne hsign t

/-- An encoded text is read the same whatever follows it: no entity goes on behind its end. -/
theorem decode_encode_append (s t : List Char) : decode (encode s ++ t) = s ++ decode t := by
  induction s with
  | nil => rfl
  | cons c s ih =>
    rw [encode_cons, List.append_assoc, decode_encodeChar_append, ih, List.cons_append]

/-- Different texts are encoded differently. -/
theorem encode_injective : Function.Injective encode :=
  Function.LeftInverse.injective decode_encode

/-! ## Which texts are encoded ones -/

/-- Whether a text has no double quote and every number sign in it starts an entity. -/
structure IsEncoded (t : List Char) : Prop where
  quote_notMem : '"' ∉ t
  entity : ∀ r, '#' :: r <:+ t → "35;".toList <+: r ∨ "quot;".toList <+: r

theorem IsEncoded.of_append {w t : List Char} (h : IsEncoded (w ++ t)) : IsEncoded t where
  quote_notMem hm := h.quote_notMem (List.mem_append_right w hm)
  entity r hr := h.entity r (hr.trans (List.suffix_append w t))

theorem isEncoded_encode (s : List Char) : IsEncoded (encode s) := by
  refine ⟨quote_notMem_encode s, ?_⟩
  induction s with
  | nil => simp
  | cons c s ih =>
    intro r hr
    rw [encode_cons] at hr
    unfold encodeChar at hr
    split at hr
    · simp only [String.reduceToList, List.cons_append, List.nil_append, List.suffix_cons_iff,
        List.cons.injEq, Char.reduceEq, false_and, false_or] at hr
      rcases hr with ⟨-, rfl⟩ | hr
      · exact .inl (List.prefix_append _ _)
      · exact ih r hr
    · next hsign =>
      split at hr
      · simp only [String.reduceToList, List.cons_append, List.nil_append, List.suffix_cons_iff,
          List.cons.injEq, Char.reduceEq, false_and, false_or] at hr
        rcases hr with ⟨-, rfl⟩ | hr
        · exact .inr (List.prefix_append _ _)
        · exact ih r hr
      · rw [List.singleton_append, List.suffix_cons_iff, List.cons.injEq] at hr
        rcases hr with ⟨rfl, -⟩ | hr
        · exact absurd rfl hsign
        · exact ih r hr

/-- Such a text is encoded again as it was. -/
theorem encode_decode {t : List Char} (h : IsEncoded t) : encode (decode t) = t := by
  fun_induction decode t with
  | case1 r ih => simp [encodeChar, ih (h.of_append (w := "#quot;".toList))]
  | case2 r ih => simp [encodeChar, ih (h.of_append (w := "#35;".toList))]
  | case3 c r hquot hsign ih =>
    have hne : c ≠ '#' := by
      rintro rfl
      rcases h.entity r List.suffix_rfl with ⟨u, rfl⟩ | ⟨u, rfl⟩
      · exact hsign u rfl rfl
      · exact hquot u rfl rfl
    have hne' : c ≠ '"' := fun e => h.quote_notMem (e ▸ List.mem_cons_self)
    rw [encode_cons, encodeChar, if_neg hne, if_neg hne', ih (h.of_append (w := [c]))]
    rfl
  | case4 => rfl

/-- A text is what some text is written as exactly if it has no double quote and every number sign in
it starts an entity. -/
theorem exists_encode_eq_iff {t : List Char} : (∃ s, encode s = t) ↔ IsEncoded t := by
  constructor
  · rintro ⟨s, rfl⟩
    exact isEncoded_encode s
  · intro h
    exact ⟨decode t, encode_decode h⟩

/-! ## Line feeds -/

/-- Characters that are neither of the two are kept. -/
theorem mem_encode_of_ne {c : Char} {s : List Char} (hsign : c ≠ '#') (hquote : c ≠ '"') (h : c ∈ s) :
    c ∈ encode s :=
  List.mem_flatMap.2 ⟨c, h, by simp [encodeChar, hsign, hquote]⟩

theorem lineFeed_mem_encode_iff {s : List Char} : '\n' ∈ encode s ↔ '\n' ∈ s := by
  constructor
  · intro h
    exact ((mem_encode h).resolve_left (by decide)).1
  · exact mem_encode_of_ne (by decide) (by decide)

/-! ## Texts in quotes -/

/-- Whether a way to write texts, and one to read them, serve for texts in quotes: what is written is
read back, so that different texts are written differently, has no double quote, and has a line feed,
or a blank at an end, exactly if the text has one. -/
structure IsQuoting (write read : List Char → List Char) : Prop where
  read_write : ∀ s, read (write s) = s
  quote_notMem : ∀ s, '"' ∉ write s
  injective : Function.Injective write
  lineFeed_iff : ∀ s, '\n' ∈ write s ↔ '\n' ∈ s
  start_iff : ∀ s, trimStart (write s) = write s ↔ trimStart s = s
  end_iff : ∀ s, trimEnd (write s) = write s ↔ trimEnd s = s

/-- The entities serve for texts in quotes, and so do the two passes, which write the same. -/
theorem isQuoting_encode : IsQuoting encode decode
    ∧ ∀ s, encode s = replace '"' "#quot;".toList (replace '#' "#35;".toList s) where
  left :=
    { read_write := decode_encode
      quote_notMem := quote_notMem_encode
      injective := encode_injective
      lineFeed_iff := fun _ => lineFeed_mem_encode_iff
      start_iff := fun s => by rw [trimStart_encode, encode_injective.eq_iff]
      end_iff := fun s => by rw [trimEnd_encode, encode_injective.eq_iff] }
  right := encode_eq_replace

/-- In the other order the two passes do not: a double quote comes back as the name of its entity. -/
theorem not_isQuoting_swapped : ¬ IsQuoting
    (fun s => replace '#' "#35;".toList (replace '"' "#quot;".toList s)) decode := by
  intro h
  exact absurd (h.read_write ['"']) (by decide)

end DiagramBoard.Text.Entity
