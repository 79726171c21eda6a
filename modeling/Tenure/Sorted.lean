/-!
# Sorting by insertion

One stable sort for everything the project lists in an order: of two equal
entries the earlier one stays first. The facts kept here are that sorting only
rearranges (`sortBy_perm`), that its result is in order (`pairwise_sortBy`) and that of
the least entries the earliest comes out first (`sortBy_eq_cons`).
-/

namespace Tenure

universe u

variable {α : Type u}

/-- Puts `x` before the first entry that it may precede. -/
def insertBy (le : α → α → Bool) (x : α) : List α → List α
  | [] => [x]
  | y :: ys => if le x y then x :: y :: ys else y :: insertBy le x ys

/-- Sorts a list; equal entries keep their order. -/
def sortBy (le : α → α → Bool) : List α → List α
  | [] => []
  | x :: xs => insertBy le x (sortBy le xs)

variable {le : α → α → Bool}

/-- Insertion adds the entry and loses none. -/
theorem insertBy_perm (x : α) (l : List α) : (insertBy le x l).Perm (x :: l) := by
  induction l with
  | nil => exact List.Perm.refl _
  | cons y ys ih =>
    rw [insertBy]
    split
    · exact List.Perm.refl _
    · exact (ih.cons y).trans (List.Perm.swap x y ys)

/-- **Sorting only rearranges.** -/
theorem sortBy_perm (l : List α) : (sortBy le l).Perm l := by
  induction l with
  | nil => exact List.Perm.refl _
  | cons x xs ih => exact (insertBy_perm x _).trans (ih.cons x)

/-- The entries after an insertion. -/
@[simp] theorem mem_insertBy {x y : α} {l : List α} : y ∈ insertBy le x l ↔ y = x ∨ y ∈ l := by
  rw [(insertBy_perm x l).mem_iff, List.mem_cons]

/-- The entries after sorting. -/
@[simp] theorem mem_sortBy {x : α} {l : List α} : x ∈ sortBy le l ↔ x ∈ l :=
  (sortBy_perm l).mem_iff

/-- Insertion keeps a list in order, if the order is total and transitive. -/
theorem pairwise_insertBy (total : ∀ a b, le a b = true ∨ le b a = true)
    (trans : ∀ a b c, le a b = true → le b c = true → le a c = true) (x : α) {l : List α}
    (h : l.Pairwise fun a b => le a b = true) :
    (insertBy le x l).Pairwise fun a b => le a b = true := by
  induction l with
  | nil => simp [insertBy]
  | cons y ys ih =>
    rw [List.pairwise_cons] at h
    rw [insertBy]
    split
    · next hxy =>
      refine List.pairwise_cons.2 ⟨?_, List.pairwise_cons.2 h⟩
      intro z hz
      rcases List.mem_cons.1 hz with rfl | hz
      · exact hxy
      · exact trans _ _ _ hxy (h.1 z hz)
    · next hxy =>
      refine List.pairwise_cons.2 ⟨?_, ih h.2⟩
      intro z hz
      rcases mem_insertBy.1 hz with rfl | hz
      · exact (total y z).resolve_right hxy
      · exact h.1 z hz

/-- **The result is in order**, if the order is total and transitive. -/
theorem pairwise_sortBy (total : ∀ a b, le a b = true ∨ le b a = true)
    (trans : ∀ a b c, le a b = true → le b c = true → le a c = true) (l : List α) :
    (sortBy le l).Pairwise fun a b => le a b = true := by
  induction l with
  | nil => exact List.Pairwise.nil
  | cons x xs ih => exact pairwise_insertBy total trans x ih

/-- **The first of the result** is one of the least, and of these the one that came earliest, if
the order is total and transitive. -/
theorem sortBy_eq_cons (total : ∀ a b, le a b = true ∨ le b a = true)
    (trans : ∀ a b c, le a b = true → le b c = true → le a c = true) {l rest : List α} {x : α}
    (h : sortBy le l = x :: rest) :
    ∃ before after, l = before ++ x :: after ∧ (∀ y ∈ before, le y x = false) ∧
      ∀ y ∈ after, le x y = true := by
  induction l generalizing x rest with
  | nil => cases h
  | cons a l ih =>
    have ordered := pairwise_sortBy total trans l
    have same : ∀ y, y ∈ sortBy le l ↔ y ∈ l := fun y => mem_sortBy
    rw [sortBy] at h
    generalize sortBy le l = sorted at h ih ordered same
    cases sorted with
    | nil =>
      cases h
      refine ⟨[], l, rfl, nofun, fun y hy => ?_⟩
      cases (same y).2 hy
    | cons y ys =>
      rw [insertBy] at h
      split at h
      · next hay =>
        cases h
        refine ⟨[], l, rfl, nofun, fun z hz => ?_⟩
        rcases List.mem_cons.1 ((same z).2 hz) with rfl | hz
        · exact hay
        · exact trans _ _ _ hay ((List.pairwise_cons.1 ordered).1 z hz)
      · next hay =>
        cases h
        obtain ⟨before, after, rfl, above, below⟩ := ih rfl
        exact ⟨a :: before, after, rfl,
          List.forall_mem_cons.2 ⟨Bool.eq_false_iff.2 hay, above⟩, below⟩

end Tenure
