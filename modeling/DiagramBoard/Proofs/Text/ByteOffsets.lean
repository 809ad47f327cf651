/-
DiagramBoard.Proofs.Text.ByteOffsets — the lines of a label found by byte offsets.

A text is kept as its bytes, and its tags are looked for among these.  The search for a tag goes on
behind each angle bracket that starts none, and what it finds is an offset and a number of bytes.
There the text is cut.  An offset inside a character would be no place to cut at.  It never comes to
that, since the bytes of a text tell where its characters start: bytes that spell a tag are the
characters of a tag.

Main statements: where a text can be cut (`splitAtByte?_eq_some_iff`, `isSome_splitAtByte?_iff`);
which bytes spell a tag (`tagLength?_bytes`); the first tag is found where it is
(`findTag?_of_isLine`, `findTag?_append_tag`); and the only cut of a label is found, at offsets none
of which is inside a character (`isCut_lines_found`).
-/
import DiagramBoard.Proofs.Text.LabelCuts

namespace DiagramBoard.Text

open String (utf8Len)

/-! ## The bytes of a text -/

/-- The bytes of a text. -/
def bytes (s : List Char) : List UInt8 := s.flatMap String.utf8EncodeChar

@[simp] theorem bytes_nil : bytes [] = [] := rfl

@[simp] theorem bytes_cons (c : Char) (s : List Char) :
    bytes (c :: s) = String.utf8EncodeChar c ++ bytes s := List.flatMap_cons

@[simp] theorem bytes_append (s t : List Char) : bytes (s ++ t) = bytes s ++ bytes t :=
  List.flatMap_append

@[simp] theorem length_bytes (s : List Char) : (bytes s).length = utf8Len s := by
  induction s with
  | nil => rfl
  | cons c s ih =>
    rw [bytes_cons, List.length_append, ih, String.length_utf8EncodeChar, String.utf8Len_cons,
      Nat.add_comm]

/-- They are the bytes that a string of these characters is kept as. -/
theorem toByteArray_ofList (s : List Char) :
    (String.ofList s).toByteArray = (bytes s).toByteArray :=
  String.toByteArray_ofList

/-- The bytes that a character starts with are those of no other one. -/
theorem eq_of_utf8EncodeChar_append {c d : Char} {u v : List UInt8}
    (h : String.utf8EncodeChar c ++ u = String.utf8EncodeChar d ++ v) : c = d := by
  have hdecode := congrArg (fun l => l.toByteArray.utf8DecodeChar? 0) h
  simpa [List.toByteArray_append, ByteArray.utf8DecodeChar?_utf8EncodeChar_append] using hdecode

/-- Bytes that spell a text are its characters. -/
theorem bytes_prefix_iff {w s : List Char} : bytes w <+: bytes s ↔ w <+: s := by
  constructor
  · rintro ⟨v, h⟩
    induction w generalizing s with
    | nil => exact List.nil_prefix
    | cons c w ih =>
      cases s with
      | nil =>
        have hlen := congrArg List.length h
        have hc := c.utf8Size_pos
        simp at hlen
        omega
      | cons d s =>
        rw [bytes_cons, bytes_cons, List.append_assoc] at h
        obtain rfl := eq_of_utf8EncodeChar_append h
        exact List.cons_prefix_cons.2 ⟨rfl, ih (List.append_cancel_left h)⟩
  · rintro ⟨t, rfl⟩
    rw [bytes_append]
    exact List.prefix_append _ _

/-! ## Places to cut a text at -/

/-- What precedes a byte offset and what follows it, unless it is inside a character or behind the
end. -/
def splitAtByte? : Nat → List Char → Option (List Char × List Char)
  | 0, s => some ([], s)
  | _ + 1, [] => none
  | n + 1, c :: s =>
    if c.utf8Size ≤ n + 1 then
      (splitAtByte? (n + 1 - c.utf8Size) s).map fun p => (c :: p.1, p.2)
    else
      none

theorem splitAtByte?_cons (c : Char) (s : List Char) (n : Nat) :
    splitAtByte? (n + c.utf8Size) (c :: s) = (splitAtByte? n s).map fun p => (c :: p.1, p.2) := by
  have hc := c.utf8Size_pos
  obtain ⟨k, hk⟩ : ∃ k, n + c.utf8Size = k + 1 := ⟨n + c.utf8Size - 1, by omega⟩
  have hn : k + 1 - c.utf8Size = n := by omega
  rw [hk, splitAtByte?, if_pos (by omega), hn]

/-- A text can be cut behind some of its characters. -/
theorem splitAtByte?_append (p r : List Char) : splitAtByte? (utf8Len p) (p ++ r) = some (p, r) := by
  induction p with
  | nil => cases r <;> rfl
  | cons c p ih =>
    rw [String.utf8Len_cons, List.cons_append, splitAtByte?_cons, ih]
    rfl

/-- Nowhere else can it be cut. -/
theorem splitAtByte?_eq_some_iff {n : Nat} {s p r : List Char} :
    splitAtByte? n s = some (p, r) ↔ s = p ++ r ∧ n = utf8Len p := by
  constructor
  · intro h
    fun_induction splitAtByte? n s generalizing p with
    | case1 => simp_all
    | case2 => simp at h
    | case3 n c s hc ih =>
      obtain ⟨⟨q, t⟩, hq, hp⟩ := Option.map_eq_some_iff.1 h
      obtain ⟨rfl, rfl⟩ := Prod.mk.inj hp
      obtain ⟨rfl, hn⟩ := ih hq
      refine ⟨rfl, ?_⟩
      rw [String.utf8Len_cons, ← hn]
      omega
    | case4 => simp at h
  · rintro ⟨rfl, rfl⟩
    exact splitAtByte?_append p r

/-- The places to cut a text at are the valid positions in it. -/
theorem isSome_splitAtByte?_iff {n : Nat} {s : List Char} :
    (splitAtByte? n s).isSome ↔ String.Pos.Raw.IsValid (String.ofList s) ⟨n⟩ := by
  simp only [Option.isSome_iff_exists, Prod.exists, splitAtByte?_eq_some_iff,
    String.Pos.Raw.isValid_iff_exists_append]
  constructor
  · rintro ⟨p, r, rfl, rfl⟩
    refine ⟨String.ofList p, String.ofList r, String.ofList_append, ?_⟩
    rw [String.rawEndPos, String.utf8ByteSize_ofList]
  · rintro ⟨p, r, hs, hn⟩
    refine ⟨p.toList, r.toList, by simpa using congrArg String.toList hs, ?_⟩
    rw [← String.utf8ByteSize_ofList, String.ofList_toList]
    exact congrArg String.Pos.Raw.byteIdx hn

/-- The letter has two bytes, and between them there is no place to cut. -/
example : splitAtByte? 1 ['é', '<'] = none ∧ splitAtByte? 2 ['é', '<'] = some (['é'], ['<']) := by
  decide

/-- The byte offset of the first occurrence of a character. -/
def offsetOf? (c : Char) (s : List Char) : Option Nat :=
  if c ∈ s then some (utf8Len (s.takeWhile (· ≠ c))) else none

theorem offsetOf?_cons_self (c : Char) (s : List Char) : offsetOf? c (c :: s) = some 0 := by
  simp [offsetOf?]

theorem offsetOf?_cons_of_ne {c d : Char} (h : d ≠ c) (s : List Char) :
    offsetOf? c (d :: s) = (offsetOf? c s).map (· + d.utf8Size) := by
  simp [offsetOf?, h, h.symm, apply_ite (Option.map _)]

/-- An occurrence behind a place to cut at is in front of the end. -/
theorem offset_lt {c : Char} {s p r : List Char} {n k : Nat} (hcut : splitAtByte? n s = some (p, r))
    (hk : offsetOf? c r = some k) : n + k < utf8Len s := by
  obtain ⟨rfl, rfl⟩ := splitAtByte?_eq_some_iff.1 hcut
  rw [String.utf8Len_append, Nat.add_lt_add_iff_left]
  induction r generalizing k with
  | nil => simp [offsetOf?] at hk
  | cons d r ih =>
    rw [String.utf8Len_cons]
    by_cases hd : d = c
    · rw [hd, offsetOf?_cons_self] at hk
      obtain rfl := Option.some.inj hk
      have hpos := d.utf8Size_pos
      omega
    · rw [offsetOf?_cons_of_ne hd] at hk
      obtain ⟨j, hj, rfl⟩ := Option.map_eq_some_iff.1 hk
      have hlt := ih hj (splitAtByte?_append p r)
      omega

namespace Label

/-! ## Tags among bytes -/

/-- An ASCII letter in lower case, any other byte as it is. -/
def lowerByte (b : UInt8) : UInt8 := if 65 ≤ b ∧ b ≤ 90 then b + 32 else b

/-- The number of bytes of the tag that some bytes are the start of, where the first byte is an angle
bracket. -/
def tagLength? (tail : List UInt8) : Option Nat :=
  if 4 ≤ tail.length ∧ ((tail.drop 1).take 2).map lowerByte = bytes "br".toList then
    if bytes ">".toList <+: tail.drop 3 then some 4
    else if bytes "/>".toList <+: tail.drop 3 then some 5
    else if bytes " />".toList <+: tail.drop 3 then some 6
    else none
  else
    none

theorem pos_of_tagLength? {tail : List UInt8} {n : Nat} (h : tagLength? tail = some n) : 0 < n := by
  unfold tagLength? at h
  grind

/-- A byte that is some other one in lower case is that one or what it is in upper case. -/
theorem eq_or_eq_of_lowerByte {x d : UInt8} (h : lowerByte x = d) : x = d ∨ x = d - 32 := by
  unfold lowerByte at h
  split at h
  · right
    rw [← h, UInt8.add_sub_cancel]
  · left
    exact h

theorem eq_or_eq_of_isTagName {b r : Char} (h : isTagName b r = true) :
    (b = 'b' ∨ b = 'B') ∧ (r = 'r' ∨ r = 'R') := by
  simpa [isTagName] using h

/-- The bytes of a text start with the name of a tag exactly if its characters do. -/
theorem name_bytes_iff {s : List Char} : ((bytes s).take 2).map lowerByte = bytes "br".toList
    ↔ ∃ b r e, s = b :: r :: e ∧ isTagName b r = true := by
  constructor
  · intro h
    obtain ⟨x, t, hx, hb, h⟩ := List.map_eq_cons_iff.1 h
    obtain ⟨y, t, rfl, hr, h⟩ := List.map_eq_cons_iff.1 h
    obtain rfl := List.map_eq_nil_iff.1 h
    have hletters : ∃ b r, [x, y] = bytes [b, r] ∧ isTagName b r = true := by
      rcases eq_or_eq_of_lowerByte hb with rfl | rfl <;>
        rcases eq_or_eq_of_lowerByte hr with rfl | rfl
      · exact ⟨'b', 'r', rfl, rfl⟩
      · exact ⟨'b', 'R', rfl, rfl⟩
      · exact ⟨'B', 'r', rfl, rfl⟩
      · exact ⟨'B', 'R', rfl, rfl⟩
    obtain ⟨b, r, hxy, hname⟩ := hletters
    have hstart : bytes [b, r] <+: bytes s := hxy ▸ hx ▸ List.take_prefix 2 (bytes s)
    obtain ⟨e, rfl⟩ := bytes_prefix_iff.1 hstart
    exact ⟨b, r, e, rfl, hname⟩
  · rintro ⟨b, r, e, rfl, hname⟩
    obtain ⟨rfl | rfl, rfl | rfl⟩ := eq_or_eq_of_isTagName hname <;> rfl

/-- Behind the name of a tag its end decides. -/
theorem breakLength_of_isTagName {b r : Char} (h : isTagName b r = true) (e : List Char) :
    breakLength ('<' :: b :: r :: e) =
      if ">".toList <+: e then 4 else if "/>".toList <+: e then 5
      else if " />".toList <+: e then 6 else 0 := by
  split_ifs with h₁ h₂ h₃
  · obtain ⟨t, rfl⟩ := h₁
    simp [breakLength, h]
  · obtain ⟨t, rfl⟩ := h₂
    simp [breakLength, h]
  · obtain ⟨t, rfl⟩ := h₃
    simp [breakLength, h]
  · unfold breakLength
    split <;> simp_all [List.cons_prefix_cons]

theorem breakLength_of_not_isTagName {s : List Char}
    (h : ¬ ∃ b r e, s = b :: r :: e ∧ isTagName b r = true) : breakLength ('<' :: s) = 0 := by
  unfold breakLength
  split <;> simp_all

/-- The bytes of a text tell the tag that it starts with. -/
theorem tagLength?_bytes (s : List Char) : tagLength? (bytes ('<' :: s)) =
    if breakLength ('<' :: s) = 0 then none else some (breakLength ('<' :: s)) := by
  have hiff : (((bytes ('<' :: s)).drop 1).take 2).map lowerByte = bytes "br".toList
      ↔ ∃ b r e, s = b :: r :: e ∧ isTagName b r = true := name_bytes_iff
  unfold tagLength?
  by_cases hname : ∃ b r e, s = b :: r :: e ∧ isTagName b r = true
  · have hspelled := hiff.2 hname
    obtain ⟨b, r, e, rfl, hbr⟩ := hname
    have hend : (bytes ('<' :: b :: r :: e)).drop 3 = bytes e
        ∧ (bytes ('<' :: b :: r :: e)).length = utf8Len e + 3 := by
      rw [length_bytes]
      obtain ⟨rfl | rfl, rfl | rfl⟩ := eq_or_eq_of_isTagName hbr <;> exact ⟨rfl, rfl⟩
    rw [breakLength_of_isTagName hbr, hend.1, hend.2]
    simp only [bytes_prefix_iff]
    -- without anything behind the name there are too few bytes
    rcases eq_or_ne e [] with rfl | he
    · rfl
    · have hpos : utf8Len e ≠ 0 := by simpa using he
      rw [if_pos ⟨by omega, hspelled⟩]
      split_ifs <;> simp_all
  · rw [if_neg fun h => hname (hiff.1 h.2), breakLength_of_not_isTagName hname, if_pos rfl]

/-! ## The search for a tag -/

/-- The byte offset of the first tag behind a byte offset and the number of its bytes, or that there
is none; nothing if the text is cut inside a character on the way. -/
def findTag? (s : List Char) (first : Nat) : Option (Option (Nat × Nat)) :=
  match hcut : splitAtByte? first s with
  | none => none
  | some (_, r) =>
    match hk : offsetOf? '<' r with
    | none => some none
    | some k =>
      have := offset_lt hcut hk
      match tagLength? ((bytes s).drop (first + k)) with
      | some n => some (some (first + k, n))
      | none => findTag? s (first + k + 1)
termination_by utf8Len s - first

/-- What the search finds is not empty. -/
theorem pos_of_findTag? {s : List Char} {first start n : Nat}
    (h : findTag? s first = some (some (start, n))) : 0 < n := by
  fun_induction findTag? s first with
  | case1 => simp at h
  | case2 => simp at h
  | case3 first _ r _ k _ _ m hm =>
    obtain ⟨-, rfl⟩ := Prod.mk.inj (Option.some.inj (Option.some.inj h))
    exact pos_of_tagLength? hm
  | case4 _ _ _ _ _ _ _ _ ih => exact ih h

/-- The step of the search: from a place in the text to the next angle bracket. -/
theorem findTag?_append (p r : List Char) : findTag? (p ++ r) (utf8Len p) =
    match offsetOf? '<' r with
    | none => some none
    | some k =>
      match tagLength? ((bytes r).drop k) with
      | some n => some (some (utf8Len p + k, n))
      | none => findTag? (p ++ r) (utf8Len p + k + 1) := by
  have hdrop : ∀ k, (bytes (p ++ r)).drop (utf8Len p + k) = (bytes r).drop k := by
    intro k
    rw [bytes_append, ← length_bytes, List.drop_length_add_append]
  have hcut := splitAtByte?_append p r
  rw [findTag?]
  split
  · next h =>
    rw [hcut] at h
    contradiction
  · next q h =>
    obtain ⟨-, rfl⟩ := Prod.mk.inj (Option.some.inj (hcut.symm.trans h))
    simp only [hdrop]
    split <;> simp_all

/-- The search passes over a character that no tag starts with. -/
theorem findTag?_of_zero {c : Char} {r : List Char} (p : List Char) (h : breakLength (c :: r) = 0) :
    findTag? (p ++ c :: r) (utf8Len p) = findTag? (p ++ [c] ++ r) (utf8Len (p ++ [c])) := by
  by_cases hc : c = '<'
  · rw [hc] at h ⊢
    rw [findTag?_append, offsetOf?_cons_self]
    simp only [List.drop_zero, tagLength?_bytes, h, if_true, String.utf8Len_append,
      List.append_assoc]
    rfl
  · rw [findTag?_append, findTag?_append (p ++ [c]), offsetOf?_cons_of_ne hc]
    cases offsetOf? '<' r with
    | none => rfl
    | some k =>
      have hdrop : (bytes (c :: r)).drop (k + c.utf8Size) = (bytes r).drop k := by
        rw [bytes_cons, Nat.add_comm, ← String.length_utf8EncodeChar, List.drop_length_add_append]
      have hsum : utf8Len p + (k + c.utf8Size) = utf8Len (p ++ [c]) + k := by
        rw [String.utf8Len_append, String.utf8Len_cons, String.utf8Len_nil]
        omega
      simp only [Option.map_some, hdrop, hsum, List.append_assoc, List.singleton_append]

/-- In a line it finds nothing. -/
theorem findTag?_of_isLine {l : List Char} (p : List Char) (hl : IsLine l) :
    findTag? (p ++ l) (utf8Len p) = some none := by
  induction l generalizing p with
  | nil =>
    rw [findTag?_append]
    rfl
  | cons c l ih =>
    obtain ⟨hc, hl⟩ := isLine_cons_iff.1 hl
    rw [findTag?_of_zero p hc, ih (p ++ [c]) hl]

/-- A tag has as many bytes as characters. -/
theorem utf8Len_of_isTag {t : List Char} (h : IsTag t) : utf8Len t = t.length := by
  obtain ⟨b, r, e, he, rfl, hname⟩ := isTag_iff.1 h
  obtain ⟨rfl | rfl, rfl | rfl⟩ := eq_or_eq_of_isTagName hname <;> fin_cases he <;> rfl

/-- Behind a line it finds the tag there. -/
theorem findTag?_append_tag {l t : List Char} (p : List Char) (hl : IsLine l) (ht : IsTag t)
    (r : List Char) :
    findTag? (p ++ (l ++ (t ++ r))) (utf8Len p) = some (some (utf8Len (p ++ l), utf8Len t)) := by
  obtain ⟨hne, hlen⟩ := isBreak_iff.2 (.inr ht)
  have hzero : breakLength t ≠ 0 := by simpa [hlen] using hne
  have hfound : breakLength (t ++ r) = utf8Len t := by
    rw [breakLength_append_of_ne_zero hzero, hlen, utf8Len_of_isTag ht]
  have hpos : utf8Len t ≠ 0 := by simpa using hne
  obtain ⟨b, n, e, -, rfl, -⟩ := isTag_iff.1 ht
  -- the search passes over the line character by character, since no tag starts at any of them
  induction l generalizing p with
  | nil =>
    rw [List.nil_append, findTag?_append, List.cons_append, offsetOf?_cons_self]
    rw [List.cons_append] at hfound
    simp only [List.drop_zero, tagLength?_bytes, hfound, if_neg hpos, List.append_nil, Nat.add_zero]
  | cons c l ih =>
    obtain ⟨hc, hl⟩ := isLine_cons_iff.1 hl
    have hzero : breakLength (c :: (l ++ ('<' :: b :: n :: e ++ r))) = 0 :=
      (breakLength_append (List.cons_ne_nil c l) (.inr rfl) _).trans hc
    rw [List.cons_append, findTag?_of_zero p hzero, ih (p ++ [c]) hl, List.append_assoc,
      List.singleton_append]

/-! ## The lines of a label -/

/-- What follows a place behind the start is less than the text. -/
theorem utf8Len_lt_of_splitAtByte? {s p r : List Char} {n : Nat} (hn : 0 < n)
    (h : splitAtByte? n s = some (p, r)) : utf8Len r < utf8Len s := by
  obtain ⟨rfl, rfl⟩ := splitAtByte?_eq_some_iff.1 h
  rw [String.utf8Len_append]
  omega

/-- The lines of a text without line feeds, if it is never cut inside a character. -/
def linesFrom? (rest : List Char) : Option (List (List Char)) :=
  match hfind : findTag? rest 0 with
  | none => none
  | some none => some [rest]
  | some (some (start, n)) =>
    match splitAtByte? start rest with
    | none => none
    | some (l, _) =>
      match hcut : splitAtByte? (start + n) rest with
      | none => none
      | some (_, r) =>
        have := utf8Len_lt_of_splitAtByte? (Nat.add_pos_right start (pos_of_findTag? hfind)) hcut
        (linesFrom? r).map (l :: ·)
termination_by utf8Len rest

theorem linesFrom?_of_isLine {l : List Char} (hl : IsLine l) : linesFrom? l = some [l] := by
  have hfind : findTag? l 0 = some none := findTag?_of_isLine [] hl
  rw [linesFrom?]
  split <;> simp_all

theorem linesFrom?_append_tag {l t : List Char} (hl : IsLine l) (ht : IsTag t) (r : List Char) :
    linesFrom? (l ++ (t ++ r)) = (linesFrom? r).map (l :: ·) := by
  have hfind : findTag? (l ++ (t ++ r)) 0 = some (some (utf8Len l, utf8Len t)) :=
    findTag?_append_tag [] hl ht r
  have hbefore := splitAtByte?_append l (t ++ r)
  have hbehind : splitAtByte? (utf8Len l + utf8Len t) (l ++ (t ++ r)) = some (l ++ t, r) := by
    rw [← String.utf8Len_append, ← List.append_assoc]
    exact splitAtByte?_append (l ++ t) r
  rw [linesFrom?]
  split
  · simp_all
  · simp_all
  · next start n h =>
    obtain ⟨rfl, rfl⟩ : utf8Len l = start ∧ utf8Len t = n := by simpa [hfind] using h
    rw [hbefore]
    dsimp only
    split <;> simp_all

/-- The lines of a text without line feeds are found, and it is never cut inside a character. -/
theorem linesFrom?_eq {s : List Char} (h : '\n' ∉ s) : linesFrom? s = some (lines s) := by
  suffices hcut : ∀ bs ls, IsCut s ls bs → linesFrom? s = some ls from hcut _ _ (isCut_lines s)
  intro bs
  -- by induction on the breaks, which are tags all
  induction bs generalizing s with
  | nil =>
    intro ls hcut
    obtain ⟨rfl, hline⟩ := isCut_nil_iff.1 hcut
    exact linesFrom?_of_isLine hline
  | cons b bs ih =>
    intro ls hcut
    obtain ⟨l, ls, r, rfl, rfl, hl, hb, hr⟩ := isCut_cons_iff.1 hcut
    rw [List.mem_append, List.mem_append, not_or, not_or] at h
    obtain ⟨-, hfeed, hrest⟩ := h
    have htag : IsTag b := (isBreak_iff.1 hb).resolve_left fun e => hfeed (e ▸ List.mem_cons_self)
    rw [linesFrom?_append_tag hl htag, ih hrest ls hr]
    rfl

/-- The lines of a label, if it is never cut inside a character. -/
def cutLines? (label : List Char) : Option (List (List Char)) :=
  ((label.splitOn '\n').mapM linesFrom?).map List.flatten

theorem cutLines?_append {s : List Char} (h : '\n' ∉ s) (r : List Char) :
    cutLines? (s ++ '\n' :: r) = (linesFrom? s).bind fun ls => (cutLines? r).map (ls ++ ·) := by
  rw [cutLines?, List.splitOn_append_cons_self_of_not_mem h, List.mapM_cons]
  cases linesFrom? s with
  | none => rfl
  | some ls =>
    rw [cutLines?]
    cases (r.splitOn '\n').mapM linesFrom? <;> rfl

/-- The lines of a label are found by their byte offsets. -/
theorem cutLines?_eq (label : List Char) : cutLines? label = some (lines label) := by
  induction hn : label.length using Nat.strong_induction_on generalizing label with
  | _ n ih =>
    by_cases h : '\n' ∈ label
    · obtain ⟨s, r, rfl, hs⟩ := List.eq_append_cons_of_mem h
      have hlt : r.length < n := by
        rw [← hn, List.length_append, List.length_cons]
        omega
      rw [cutLines?_append hs, linesFrom?_eq hs, ih _ hlt r rfl, lines_append_lineFeed]
      rfl
    · rw [cutLines?, List.splitOn_eq_singleton h, List.mapM_cons, linesFrom?_eq h]
      simp

/-- The lines of a label and the breaks that were found are a cut of it, it has no other one, and it
is found by byte offsets none of which is inside a character. -/
theorem isCut_lines_found (label : List Char) :
    IsCut label (lines label) (breaks label)
      ∧ (∀ ls bs, IsCut label ls bs → ls = lines label ∧ bs = breaks label)
      ∧ cutLines? label = some (lines label) :=
  ⟨isCut_lines label, fun _ _ => isCut_iff.1, cutLines?_eq label⟩

/-- Stray pieces of tags and letters of two bytes stay in their lines. -/
theorem isCut_lines_found_stray :
    IsCut "é<br<BR />ü<b>\n<".toList ["é<br".toList, "ü<b>".toList, "<".toList]
        ["<BR />".toList, "\n".toList]
      ∧ cutLines? "é<br<BR />ü<b>\n<".toList
        = some ["é<br".toList, "ü<b>".toList, "<".toList] := by
  have hlines : lines "é<br<BR />ü<b>\n<".toList
      = ["é<br".toList, "ü<b>".toList, "<".toList] := by
    cbv
  have hbreaks : breaks "é<br<BR />ü<b>\n<".toList = ["<BR />".toList, "\n".toList] := by
    cbv
  obtain ⟨hcut, -, hfound⟩ := isCut_lines_found "é<br<BR />ü<b>\n<".toList
  rw [hlines, hbreaks] at hcut
  exact ⟨hcut, hlines ▸ hfound⟩

end Label

end DiagramBoard.Text
