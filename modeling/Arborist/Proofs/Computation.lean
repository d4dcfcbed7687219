import Mathlib.Data.List.Forall2

/-!
# Computations that may fail

Readers of patterns fail with a flaw and readers of trees with a fault; both are steps of `Except`.
The first lemmas take a successful computation apart into its successful steps.

Reading a valid tree does not fail, and what is then said of a computation is its answer. Two forms
of answers recur: `Decides` for tests, and `Finds` for what is there at most once.
-/

namespace Arborist

variable {ε α β : Type}

/-! ## Steps -/

section Steps

variable {x : Except ε α} {f : α → Except ε β} {a a' : α} {b : β}

theorem ok_bind : (.ok a : Except ε α) >>= f = f a := rfl

theorem bind_eq_ok_iff : x >>= f = .ok b ↔ ∃ a, x = .ok a ∧ f a = .ok b := by
  cases x with
  | error e =>
      refine iff_of_false ?_ ?_
      · rintro ⟨⟩
      · rintro ⟨a, ⟨⟩, -⟩
  | ok a =>
      constructor
      · exact fun h => ⟨a, rfl, h⟩
      · rintro ⟨a, ⟨⟩, h⟩
        exact h

theorem bind_eq_error_iff {e : ε} :
    x >>= f = .error e ↔ x = .error e ∨ ∃ a, x = .ok a ∧ f a = .error e := by
  cases x with
  | error e' =>
      constructor
      · intro h
        exact .inl (congrArg _ (Except.error.inj h))
      · intro h
        rcases h with h | ⟨a, h, -⟩
        · exact congrArg _ (Except.error.inj h)
        · cases h
  | ok a =>
      constructor
      · intro h
        exact .inr ⟨a, rfl, h⟩
      · intro h
        rcases h with h | ⟨a', h, h'⟩
        · cases h
        · cases h
          exact h'

theorem pure_eq_ok_iff : (pure a : Except ε α) = .ok a' ↔ a = a' :=
  ⟨Except.ok.inj, congrArg _⟩

theorem exists_eq_ok_of_isOk (h : x.isOk = true) : ∃ a, x = .ok a := by
  cases x with
  | error e => cases h
  | ok a => exact ⟨a, rfl⟩

theorem mapError_eq_ok_iff {ε' : Type} {g : ε → ε'} : x.mapError g = .ok a ↔ x = .ok a := by
  cases x with
  | error e => exact iff_of_false (by rintro ⟨⟩) (by rintro ⟨⟩)
  | ok found => exact ⟨fun h => congrArg _ (Except.ok.inj h), fun h => congrArg _ (Except.ok.inj h)⟩

/-- A step taken for each of a list succeeds if it does for each of them. -/
theorem mapM_eq_ok_iff {xs : List α} {ys : List β} :
    xs.mapM f = .ok ys ↔ List.Forall₂ (fun x y => f x = .ok y) xs ys := by
  induction xs generalizing ys with
  | nil =>
      rw [List.mapM_nil, pure_eq_ok_iff, List.forall₂_nil_left_iff]
      exact eq_comm
  | cons x xs ih =>
      simp only [List.mapM_cons, bind_eq_ok_iff, pure_eq_ok_iff, List.forall₂_cons_left_iff, ih]
      constructor
      · rintro ⟨y, hy, ys, hys, rfl⟩
        exact ⟨y, ys, hy, hys, rfl⟩
      · rintro ⟨y, ys, hy, hys, rfl⟩
        exact ⟨y, hy, ys, hys, rfl⟩

/-- If each of a list is related to something, the list is related to a list. -/
theorem exists_forall₂ {R : α → β → Prop} {xs : List α} (h : ∀ x ∈ xs, ∃ y, R x y) :
    ∃ ys, List.Forall₂ R xs ys := by
  induction xs with
  | nil => exact ⟨[], .nil⟩
  | cons x xs ih =>
      obtain ⟨⟨y, hy⟩, hxs⟩ := List.forall_mem_cons.mp h
      obtain ⟨ys, hys⟩ := ih hxs
      exact ⟨y :: ys, .cons hy hys⟩

theorem exists_mem_of_forall₂ {R : α → β → Prop} {xs : List α} {ys : List β}
    (h : List.Forall₂ R xs ys) {y : β} (hy : y ∈ ys) : ∃ x ∈ xs, R x y := by
  induction h with
  | nil => cases hy
  | @cons x first xs ys hx _ ih =>
      rcases List.mem_cons.mp hy with rfl | hy
      · exact ⟨x, List.mem_cons_self, hx⟩
      · obtain ⟨x', hmem, hx'⟩ := ih hy
        exact ⟨x', List.mem_cons_of_mem x hmem, hx'⟩

/-- Both ways of going on succeed, with a result of the same kind. -/
theorem exists_ok_ite {c : Prop} [Decidable c] {x y : Except ε α} {p : α → Prop}
    (hx : ∃ a, x = .ok a ∧ p a) (hy : ∃ a, y = .ok a ∧ p a) :
    ∃ a, (if c then x else y) = .ok a ∧ p a := by
  split
  · exact hx
  · exact hy

/-- A check that refuses lets the rest run exactly if what it looks for is not there. -/
theorem refuse_eq_ok_iff {p : Prop} [Decidable p] {e : ε} {rest : PUnit → Except ε α} :
    (if p then throw e >>= rest else x) = .ok a ↔ ¬p ∧ x = .ok a := by
  by_cases hp : p
  · rw [if_pos hp]
    exact iff_of_false (fun h => by cases h) (fun h => h.1 hp)
  · rw [if_neg hp, and_iff_right hp]

/-- What a check that refuses is stopped by: the refusal, or what stops the rest. -/
theorem refuse_eq_error_iff {p : Prop} [Decidable p] {e e' : ε} {rest : PUnit → Except ε α} :
    (if p then throw e >>= rest else x) = .error e' ↔ (p ∧ e = e') ∨ (¬p ∧ x = .error e') := by
  by_cases hp : p
  · rw [if_pos hp]
    constructor
    · intro h
      exact .inl ⟨hp, Except.error.inj h⟩
    · intro h
      rcases h with ⟨-, rfl⟩ | ⟨hnot, -⟩
      · rfl
      · exact absurd hp hnot
  · rw [if_neg hp]
    simp [hp]

end Steps

/-! ## Answers -/

/-- The test ends, and its answer is whether the statement is true. -/
def Decides (test : Except ε Bool) (p : Prop) : Prop :=
  ∃ answer, test = .ok answer ∧ (answer = true ↔ p)

/-- The search ends, and finds the value of which the predicate is true, if there is one. -/
def Finds (search : Except ε (Option α)) (p : α → Prop) : Prop :=
  ∃ found, search = .ok found ∧ ∀ a, found = some a ↔ p a

theorem finds_none {p : α → Prop} (h : ∀ a, ¬p a) : Finds (.ok none : Except ε (Option α)) p :=
  ⟨none, rfl, fun a => iff_of_false (by rintro ⟨⟩) (h a)⟩

theorem Finds.congr {search : Except ε (Option α)} {p q : α → Prop} (h : Finds search p)
    (hpq : ∀ a, p a ↔ q a) : Finds search q := by
  obtain ⟨found, hfound, hiff⟩ := h
  exact ⟨found, hfound, fun a => (hiff a).trans (hpq a)⟩

end Arborist
