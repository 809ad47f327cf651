/-
DiagramBoard.Proofs.Keyed — lists of things that have keys, and lists side by side.

Where no two things of a list have the same key, it makes no difference whether the first or the
last thing of a key is looked up, and only one of the parts of a list can hold the things of a key.

Main statements: the thing of a key is found (`find?_of_nodup`), also as the last one
(`getLast?_filter_of_nodup`) and in any order of the list (`find?_of_perm`, `lookup_of_perm`), and
only its own part holds what belongs to it (`filter_flatMap_of_nodup`).
-/
import Mathlib

namespace DiagramBoard

/-! ## Looking up -/

/-- The last of some things with a property, with one more thing in front. -/
theorem getLast?_filter_cons {β : Type} (p : β → Bool) (x : β) (xs : List β) :
    ((x :: xs).filter p).getLast? = (xs.filter p).getLast?.or (if p x then some x else none) := by
  by_cases hx : p x = true
  · rw [List.filter_cons_of_pos hx, if_pos hx, List.getLast?_cons]
    cases (xs.filter p).getLast? <;> rfl
  · rw [List.filter_cons_of_neg hx, if_neg hx, Option.or_none]

/-- Where keys differ, the last thing with a key is the first one. -/
theorem getLast?_filter_of_nodup {β : Type} (key : β → String) {xs : List β}
    (h : (xs.map key).Nodup) (name : String) :
    (xs.filter fun x => key x = name).getLast? = xs.find? fun x => key x = name := by
  induction xs with
  | nil => rfl
  | cons x xs ih =>
    rw [List.map_cons, List.nodup_cons] at h
    rw [getLast?_filter_cons, ih h.2]
    by_cases hx : key x = name
    · have hnone : xs.find? (fun y => key y = name) = none := by
        rw [List.find?_eq_none]
        intro y hy hky
        have : key y = key x := by rw [hx]; simpa using hky
        exact h.1 (this ▸ List.mem_map_of_mem hy)
      rw [hnone, List.find?_cons_of_pos (by simpa using hx)]
      simp [hx]
    · rw [List.find?_cons_of_neg (by simpa using hx)]
      simp [hx]

/-- Where keys differ, everything is found under its key. -/
theorem find?_of_nodup {β : Type} {key : β → String} {xs : List β} (h : (xs.map key).Nodup)
    {x : β} (hx : x ∈ xs) : (xs.find? fun y => key y = key x) = some x := by
  induction xs with
  | nil => simp at hx
  | cons y ys ih =>
    rw [List.map_cons, List.nodup_cons] at h
    rcases List.mem_cons.1 hx with rfl | hmem
    · exact List.find?_cons_of_pos (by simp)
    · have hne : key y ≠ key x := fun he => h.1 (he ▸ List.mem_map_of_mem hmem)
      rw [List.find?_cons_of_neg (by simpa using hne)]
      exact ih h.2 hmem

/-- Where keys differ, everything is also the last thing of its key. -/
theorem getLast?_of_nodup {β : Type} {key : β → String} {xs : List β} (h : (xs.map key).Nodup)
    {x : β} (hx : x ∈ xs) : (xs.filter fun y => key y = key x).getLast? = some x := by
  rw [getLast?_filter_of_nodup key h, find?_of_nodup h hx]

/-- Where keys differ, everything is the only thing of its key. -/
theorem filter_of_nodup {β : Type} {key : β → String} {xs : List β} (h : (xs.map key).Nodup)
    {x : β} (hx : x ∈ xs) : (xs.filter fun y => key y = key x) = [x] := by
  induction xs with
  | nil => simp at hx
  | cons y ys ih =>
    rw [List.map_cons, List.nodup_cons] at h
    rcases List.mem_cons.1 hx with rfl | hmem
    · have hrest : ys.filter (fun y => key y = key x) = [] := by
        refine List.filter_eq_nil_iff.2 fun y hy hkey => h.1 ?_
        exact of_decide_eq_true hkey ▸ List.mem_map_of_mem hy
      rw [List.filter_cons_of_pos (by simp), hrest]
    · have hne : key y ≠ key x := fun he => h.1 (he ▸ List.mem_map_of_mem hmem)
      rw [List.filter_cons_of_neg (by simpa using hne), ih h.2 hmem]

/-- Where keys differ, what is found under a key does not depend on the order of a list. -/
theorem find?_of_perm {β : Type} {key : β → String} {xs ys : List β} (hperm : xs.Perm ys)
    (h : (xs.map key).Nodup) (name : String) :
    (xs.find? fun x => key x = name) = ys.find? fun y => key y = name := by
  have hys : (ys.map key).Nodup := (hperm.map key).nodup_iff.1 h
  cases hx : xs.find? fun x => key x = name with
  | none =>
    refine (List.find?_eq_none.2 fun y hy => ?_).symm
    exact List.find?_eq_none.1 hx y (hperm.mem_iff.2 hy)
  | some x =>
    obtain rfl : key x = name := by simpa using List.find?_some hx
    exact (find?_of_nodup hys (hperm.mem_iff.1 (List.mem_of_find?_eq_some hx))).symm

theorem lookup_eq_find? {β : Type} (xs : List (String × β)) (name : String) :
    xs.lookup name = (xs.find? fun x => x.1 = name).map Prod.snd := by
  induction xs with
  | nil => rfl
  | cons x xs ih =>
    by_cases hx : x.1 = name
    · rw [List.find?_cons_of_pos (by simpa using hx), ← hx]
      exact List.lookup_cons_self
    · have hne : (name == x.1) = false := by simpa using Ne.symm hx
      rw [List.find?_cons_of_neg (by simpa using hx), ← ih, List.lookup_cons, hne]

/-- Where keys differ, a look-up does not depend on the order of a list. -/
theorem lookup_of_perm {β : Type} {xs ys : List (String × β)} (hperm : xs.Perm ys)
    (h : (xs.map Prod.fst).Nodup) (name : String) : xs.lookup name = ys.lookup name := by
  rw [lookup_eq_find?, lookup_eq_find?, find?_of_perm hperm h]

/-- Two partial maps that are defined at the same things of a list are equal there as soon as they
give the same list. -/
theorem eq_of_filterMap_eq {β γ : Type} {f g : β → Option γ} {xs : List β}
    (hdefined : ∀ x ∈ xs, (f x).isSome = (g x).isSome) (h : xs.filterMap f = xs.filterMap g) :
    ∀ x ∈ xs, f x = g x := by
  induction xs with
  | nil => simp
  | cons y ys ih =>
    have hy := hdefined y List.mem_cons_self
    have hys : ∀ x ∈ ys, (f x).isSome = (g x).isSome := fun x hx =>
      hdefined x (List.mem_cons_of_mem _ hx)
    rw [List.filterMap_cons, List.filterMap_cons] at h
    intro x hx
    cases hf : f y with
    | none =>
      have hg : g y = none := by simpa [hf] using hy.symm
      rw [hf, hg] at h
      rcases List.mem_cons.1 hx with rfl | hx
      · rw [hf, hg]
      · exact ih hys h x hx
    | some a =>
      obtain ⟨b, hg⟩ := Option.isSome_iff_exists.1 (by rw [← hy, hf]; rfl : (g y).isSome = true)
      rw [hf, hg] at h
      obtain ⟨hab, hrest⟩ := List.cons.inj h
      rcases List.mem_cons.1 hx with rfl | hx
      · rw [hf, hg, hab]
      · exact ih hys hrest x hx

/-! ## Parts of a list -/

/-- Only one of several lists contributes to the elements with a property. -/
theorem filter_flatMap_of_nodup {β γ : Type} (key : β → String) {f : β → List γ} {p : γ → Bool}
    {xs : List β} {x : β} (hnd : (xs.map key).Nodup) (hx : x ∈ xs)
    (h : ∀ y ∈ xs, key y ≠ key x → (f y).filter p = []) :
    (xs.flatMap f).filter p = (f x).filter p := by
  induction xs with
  | nil => simp at hx
  | cons y ys ih =>
    rw [List.map_cons, List.nodup_cons] at hnd
    rw [List.flatMap_cons, List.filter_append]
    rcases List.mem_cons.1 hx with rfl | hmem
    · have hrest : (ys.flatMap f).filter p = [] := by
        rw [List.filter_flatMap, List.flatMap_eq_nil_iff]
        intro z hz
        refine h z (List.mem_cons_of_mem _ hz) fun hkey => hnd.1 ?_
        exact hkey ▸ List.mem_map_of_mem hz
      rw [hrest, List.append_nil]
    · have hy : (f y).filter p = [] := by
        refine h y List.mem_cons_self fun hkey => hnd.1 ?_
        exact hkey ▸ List.mem_map_of_mem hmem
      rw [hy, List.nil_append]
      exact ih hnd.2 hmem fun z hz => h z (List.mem_cons_of_mem _ hz)

/-- Where keys differ, no element of a list is a repetition. -/
theorem eraseDupsBy_of_nodup {β : Type} {key : β → String} {xs : List β}
    (h : (xs.map key).Nodup) : (xs.eraseDupsBy fun a b => key a == key b) = xs := by
  induction xs with
  | nil => simp
  | cons x xs ih =>
    rw [List.map_cons, List.nodup_cons] at h
    have hself : xs.filter (fun b => decide ((key b == key x) = false)) = xs := by
      rw [List.filter_eq_self]
      intro b hb
      have hne : key b ≠ key x := fun he => h.1 (he ▸ List.mem_map_of_mem hb)
      simpa using hne
    rw [List.eraseDupsBy_cons, hself, ih h.2]

/-- Lists whose parts are the same but for their order are the same but for their order, if
everything is in some part. -/
theorem perm_of_filter_perm {β ι : Type} {p : ι → β → Bool} {xs ys : List β}
    (hp : ∀ x, ∃ i, p i x = true) (h : ∀ i, (xs.filter (p i)).Perm (ys.filter (p i))) :
    xs.Perm ys := by
  classical
  refine List.perm_iff_count.2 fun x => ?_
  obtain ⟨i, hi⟩ := hp x
  rw [← List.count_filter hi, ← List.count_filter (l := ys) hi]
  exact List.perm_iff_count.1 (h i) x

/-- Repetitions are found by their keys, whatever else the things are mapped to. -/
theorem eraseDupsBy_map {β γ κ : Type} [BEq κ] (f : β → γ) (key : γ → κ) (xs : List β) :
    (xs.map f).eraseDupsBy (fun a b => key a == key b)
      = (xs.eraseDupsBy fun a b => key (f a) == key (f b)).map f := by
  match xs with
  | [] => rfl
  | x :: xs =>
    rw [List.map_cons, List.eraseDupsBy_cons, List.eraseDupsBy_cons, List.map_cons,
      List.filter_map, eraseDupsBy_map f key]
    rfl
termination_by xs.length
decreasing_by
  exact Nat.lt_succ_of_le (List.length_filter_le _ _)

/-- Leaving out repetitions of keys leaves the first thing of every key. -/
theorem find?_eraseDupsBy {β : Type} (key : β → String) (name : String) (xs : List β) :
    (xs.eraseDupsBy fun a b => key a == key b).find? (fun x => key x = name)
      = xs.find? fun x => key x = name := by
  match xs with
  | [] => simp
  | x :: xs =>
    rw [List.eraseDupsBy_cons]
    by_cases hx : key x = name
    · rw [List.find?_cons_of_pos (by simpa using hx), List.find?_cons_of_pos (by simpa using hx)]
    · rw [List.find?_cons_of_neg (by simpa using hx), List.find?_cons_of_neg (by simpa using hx),
        find?_eraseDupsBy key name, List.find?_filter]
      congr 1
      funext y
      by_cases hy : key y = name
      · have hne : key y ≠ key x := fun h => hx (h ▸ hy)
        have : (name == key x) = false := by
          rw [← hy]
          simpa using hne
        simp [hy, this]
      · simp [hy]
termination_by xs.length
decreasing_by
  have := List.length_filter_le (fun b => decide ((key b == key x) = false)) xs
  simp only [List.length_cons]
  omega

/-! ## Two lists in a row -/

section Filter

variable {β : Type} {p : β → Bool} {xs ys : List β}

/-- What only the first of two lists satisfies is the first one. -/
theorem filter_append_eq_left (hxs : ∀ x ∈ xs, p x = true) (hys : ∀ y ∈ ys, p y = false) :
    (xs ++ ys).filter p = xs := by
  rw [List.filter_append, List.filter_eq_self.2 hxs,
    List.filter_eq_nil_iff.2 fun y hy => Bool.eq_false_iff.1 (hys y hy), List.append_nil]

/-- What only the second of two lists satisfies is the second one. -/
theorem filter_append_eq_right (hxs : ∀ x ∈ xs, p x = false) (hys : ∀ y ∈ ys, p y = true) :
    (xs ++ ys).filter p = ys := by
  rw [List.filter_append, List.filter_eq_self.2 hys,
    List.filter_eq_nil_iff.2 fun x hx => Bool.eq_false_iff.1 (hxs x hx), List.nil_append]

end Filter

/-! ## Lists side by side -/

/-- Everything in the second of two lists goes with something in the first one. -/
theorem exists_of_forall₂ {β γ : Type} {R : β → γ → Prop} {xs : List β} {ys : List γ}
    (h : List.Forall₂ R xs ys) : ∀ y ∈ ys, ∃ x ∈ xs, R x y := by
  induction h with
  | nil => simp
  | cons hxy _ ih =>
    intro y hy
    rcases List.mem_cons.1 hy with rfl | hy
    · exact ⟨_, List.mem_cons_self, hxy⟩
    · obtain ⟨x, hx, hR⟩ := ih y hy
      exact ⟨x, List.mem_cons_of_mem _ hx, hR⟩

/-- A partial map that is defined on all of a list has one result for each thing of it. -/
theorem forall₂_filterMap {β γ δ : Type} {R : β → γ → Prop} {f : γ → Option δ} {xs : List β}
    {ys : List γ} (h : List.Forall₂ R xs ys) (hf : ∀ y ∈ ys, (f y).isSome = true) :
    List.Forall₂ (fun x z => ∃ y, R x y ∧ f y = some z) xs (ys.filterMap f) := by
  induction h with
  | nil => exact .nil
  | @cons x y xs ys hxy _ ih =>
    obtain ⟨z, hz⟩ := Option.isSome_iff_exists.1 (hf y List.mem_cons_self)
    rw [List.filterMap_cons_some hz]
    exact .cons ⟨y, hxy, hz⟩ (ih fun y hy => hf y (List.mem_cons_of_mem _ hy))

end DiagramBoard
