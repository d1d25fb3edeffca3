import Mathlib.Data.List.Forall2

/-!
# ReaderGen.Proofs.Lists -- lists that belong together element by element

A list of definitions and the list of their blocks, fields and their accessors, entries and
their texts: one list is made from the other element by element, and what is said of such a
pair is said with `List.Forall₂`. **Here a pair is taken apart and put together**: at a member
of either list, at a cut of either list, and from a partner for every member.

Where making the second list can fail, its fault is that of the first element that fails
(`FailsFirst`).
-/

namespace ReaderGen

variable {α β : Type} {R : α → β → Prop}

/-! ## Partners -/

theorem exists_left_of_forall₂ {xs : List α} {ys : List β}
    (h : List.Forall₂ R xs ys) {y : β} (hy : y ∈ ys) : ∃ x ∈ xs, R x y := by
  induction h with
  | nil => cases hy
  | cons hxy _ ih =>
    rcases List.mem_cons.mp hy with rfl | hrest
    · exact ⟨_, List.mem_cons_self .., hxy⟩
    · obtain ⟨x, hx, hother⟩ := ih hrest
      exact ⟨x, List.mem_cons_of_mem _ hx, hother⟩

theorem exists_right_of_forall₂ {xs : List α} {ys : List β}
    (h : List.Forall₂ R xs ys) {x : α} (hx : x ∈ xs) : ∃ y ∈ ys, R x y :=
  exists_left_of_forall₂ (R := flip R) h.flip hx

/-- A list has a partner list exactly if each member has a partner. -/
theorem exists_forall₂_iff {xs : List α} :
    (∃ ys, List.Forall₂ R xs ys) ↔ ∀ x ∈ xs, ∃ y, R x y := by
  constructor
  · rintro ⟨ys, h⟩ x hx
    obtain ⟨y, -, hxy⟩ := exists_right_of_forall₂ h hx
    exact ⟨y, hxy⟩
  · intro h
    induction xs with
    | nil => exact ⟨[], .nil⟩
    | cons x xs ih =>
      rw [List.forall_mem_cons] at h
      obtain ⟨y, hxy⟩ := h.1
      obtain ⟨ys, hys⟩ := ih h.2
      exact ⟨y :: ys, .cons hxy hys⟩

/-- Where partners are images, the partner list is the list of images. -/
theorem eq_map_of_forall₂ {xs : List α} {ys : List β} (h : List.Forall₂ R xs ys) {f : α → β}
    (himage : ∀ x ∈ xs, ∀ y, R x y → y = f x) : ys = xs.map f := by
  induction h with
  | nil => rfl
  | cons hxy _ ih =>
    rw [List.forall_mem_cons] at himage
    rw [List.map_cons, himage.1 _ hxy, ih himage.2]

/-! ## Cuts -/

theorem forall₂_split_right {xs : List α} {front back : List β} {y : β}
    (h : List.Forall₂ R xs (front ++ y :: back)) :
    ∃ before x after, xs = before ++ x :: after ∧ List.Forall₂ R before front ∧ R x y ∧
      List.Forall₂ R after back := by
  induction front generalizing xs with
  | nil =>
    obtain ⟨x, after, hxy, hafter, rfl⟩ := List.forall₂_cons_right_iff.mp h
    exact ⟨[], x, after, rfl, .nil, hxy, hafter⟩
  | cons z front ih =>
    obtain ⟨w, rest, hwz, hrest, rfl⟩ := List.forall₂_cons_right_iff.mp h
    obtain ⟨before, x, after, rfl, hbefore, hxy, hafter⟩ := ih hrest
    exact ⟨w :: before, x, after, rfl, .cons hwz hbefore, hxy, hafter⟩

theorem forall₂_split_left {ys : List β} {front back : List α} {x : α}
    (h : List.Forall₂ R (front ++ x :: back) ys) :
    ∃ before y after, ys = before ++ y :: after ∧ List.Forall₂ R front before ∧ R x y ∧
      List.Forall₂ R back after := by
  obtain ⟨before, y, after, hys, hbefore, hxy, hafter⟩ :=
    forall₂_split_right (R := flip R) h.flip
  exact ⟨before, y, after, hys, hbefore.flip, hxy, hafter.flip⟩

theorem forall₂_append_left_iff {front back : List α} {ys : List β} :
    List.Forall₂ R (front ++ back) ys ↔
      ∃ before after, ys = before ++ after ∧ List.Forall₂ R front before ∧
        List.Forall₂ R back after := by
  constructor
  · intro h
    induction front generalizing ys with
    | nil => exact ⟨[], ys, rfl, .nil, h⟩
    | cons x front ih =>
      obtain ⟨y, rest, hxy, hrest, rfl⟩ := List.forall₂_cons_left_iff.mp h
      obtain ⟨before, after, rfl, hbefore, hafter⟩ := ih hrest
      exact ⟨y :: before, after, rfl, .cons hxy hbefore, hafter⟩
  · rintro ⟨before, after, rfl, hbefore, hafter⟩
    exact List.rel_append hbefore hafter

/-- An element of a concatenation stands in one of its parts. -/
theorem getElem?_flatten_split {blocks : List (List α)} {k : ℕ} {x : α}
    (h : blocks.flatten[k]? = some x) :
    ∃ before block after p, blocks = before ++ block :: after ∧ block[p]? = some x ∧
      k = before.flatten.length + p := by
  induction blocks generalizing k with
  | nil => simp at h
  | cons block rest ih =>
    rw [List.flatten_cons] at h
    by_cases hk : k < block.length
    · rw [List.getElem?_append_left hk] at h
      exact ⟨[], block, rest, k, rfl, h, by simp⟩
    · rw [List.getElem?_append_right (Nat.not_lt.mp hk)] at h
      obtain ⟨before, found, after, p, rfl, hp, hsum⟩ := ih h
      refine ⟨block :: before, found, after, p, rfl, hp, ?_⟩
      rw [List.flatten_cons, List.length_append]
      omega

/-- What stands in front of a place in a part stands in front of it in the concatenation. -/
theorem take_subset_take_flatten (before after : List (List α)) (block : List α) (p : ℕ) :
    block.take p ⊆ (before ++ block :: after).flatten.take (before.flatten.length + p) := by
  intro x hx
  rw [List.flatten_append, List.flatten_cons, List.take_length_add_append, List.take_append]
  exact List.mem_append_right _ (List.mem_append_left _ hx)

/-! ## The first failure -/

/-- The steps on the elements fail, and `fault` is the fault of the first that does: the steps
on all elements in front of it succeed. -/
def FailsFirst {ε : Type} (step : α → Except ε β) (xs : List α) (fault : ε) : Prop :=
  ∃ before x after, xs = before ++ x :: after ∧ (∀ y ∈ before, ∃ value, step y = .ok value) ∧
    step x = .error fault

section FirstFailure

variable {ε : Type} {step : α → Except ε β} {xs ys : List α} {fault : ε}

theorem not_failsFirst_nil : ¬ FailsFirst step [] fault := by
  rintro ⟨before, x, after, h, -⟩
  exact List.append_ne_nil_of_right_ne_nil before (List.cons_ne_nil x after) h.symm

theorem failsFirst_cons_iff {x : α} :
    FailsFirst step (x :: xs) fault ↔
      step x = .error fault ∨ (∃ value, step x = .ok value) ∧ FailsFirst step xs fault := by
  constructor
  · rintro ⟨before, y, after, h, hbefore, hy⟩
    cases before with
    | nil =>
      obtain ⟨rfl, -⟩ := List.cons.inj h
      exact Or.inl hy
    | cons first before =>
      obtain ⟨rfl, rfl⟩ := List.cons.inj h
      rw [List.forall_mem_cons] at hbefore
      exact Or.inr ⟨hbefore.1, before, y, after, rfl, hbefore.2, hy⟩
  · rintro (hx | ⟨hx, before, y, after, rfl, hbefore, hy⟩)
    · exact ⟨[], x, xs, rfl, nofun, hx⟩
    · exact ⟨x :: before, y, after, rfl, List.forall_mem_cons.mpr ⟨hx, hbefore⟩, hy⟩

/-- A later part fails first exactly if the earlier part does not fail at all. -/
theorem failsFirst_append_iff :
    FailsFirst step (xs ++ ys) fault ↔
      FailsFirst step xs fault ∨
        (∀ x ∈ xs, ∃ value, step x = .ok value) ∧ FailsFirst step ys fault := by
  induction xs with
  | nil => simp [not_failsFirst_nil]
  | cons x xs ih =>
    rw [List.cons_append, failsFirst_cons_iff, failsFirst_cons_iff, ih, List.forall_mem_cons]
    tauto

end FirstFailure

/-! ## Order -/

/-- A relation between each element and the later ones, by cutting the list. -/
theorem pairwise_of_split {S : α → α → Prop} {xs : List α}
    (h : ∀ before x after, xs = before ++ x :: after → ∀ y ∈ after, S x y) : xs.Pairwise S := by
  induction xs with
  | nil => exact .nil
  | cons x rest ih =>
    rw [List.pairwise_cons]
    refine ⟨h [] x rest rfl, ih ?_⟩
    intro before y after hrest
    exact h (x :: before) y after (by rw [hrest, List.cons_append])

end ReaderGen
