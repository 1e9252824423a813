/-
Tables filled by owners.

Every owner has an entry for some of the keys, and no two owners of a list have one for the same
key.  What the table should hold then does not depend on the order of the owners.
-/
import Mathlib.Data.List.Pairwise
import Mathlib.Data.Option.Basic

namespace Owned

open List

variable {α κ V : Type} (entry : α → κ → Option V)

/-- What a list of owners has for a key. -/
def held (l : List α) (k : κ) : Option V :=
  l.findSome? (entry · k)

/-- Two owners have no key in common. -/
def Apart (x y : α) : Prop :=
  ∀ k, entry x k = none ∨ entry y k = none

variable {entry} {l : List α} {x y : α} {k : κ} {v : V}

instance : Std.Symm (Apart entry) :=
  ⟨fun _ _ h k => (h k).symm⟩

@[simp] theorem held_nil : held entry [] k = none := rfl

theorem exists_of_held (h : held entry l k = some v) : ∃ x ∈ l, entry x k = some v :=
  exists_of_findSome?_eq_some h

theorem held_of_mem (hl : l.Pairwise (Apart entry)) (hx : x ∈ l) (hv : entry x k = some v) :
    held entry l k = some v := by
  induction l with
  | nil => cases hx
  | cons y ys ih =>
    rw [pairwise_cons] at hl
    rcases mem_cons.mp hx with rfl | hmem
    · simp [held, hv]
    · have hy : entry y k = none := (hl.1 x hmem k).resolve_right (by simp [hv])
      rw [held, findSome?_cons, hy]
      exact ih hl.2 hmem

theorem held_eq_some_iff (hl : l.Pairwise (Apart entry)) :
    held entry l k = some v ↔ ∃ x ∈ l, entry x k = some v :=
  ⟨exists_of_held, fun ⟨_, hx, hv⟩ => held_of_mem hl hx hv⟩

theorem held_eq_none_iff : held entry l k = none ↔ ∀ x ∈ l, entry x k = none :=
  findSome?_eq_none_iff

/-- The new owner's entries go first or last. -/
theorem held_concat (hx : ∀ y ∈ l, Apart entry x y) :
    held entry (l ++ [x]) k = (entry x k <|> held entry l k) := by
  have happend : held entry (l ++ [x]) k = (held entry l k <|> entry x k) := by
    simp [held, findSome?_append]
  rw [happend]
  rcases hv : entry x k with _ | v
  · simp
  · have hnone : held entry l k = none :=
      held_eq_none_iff.mpr fun y hy => ((hx y hy) k).resolve_left (by simp [hv])
    simp [hnone]

/-- Without one of its owners, the table holds nothing at the owner's keys and the same at the
others. -/
theorem held_filter_of_mem {p : α → Bool} (hl : l.Pairwise (Apart entry)) (hx : x ∈ l)
    (hp : ∀ y ∈ l, p y = false ↔ y = x) :
    held entry (l.filter p) k = if (entry x k).isSome then none else held entry l k := by
  rcases hv : entry x k with _ | v
  · -- every owner that has the key is still there
    refine Option.ext fun v => ?_
    rw [held_eq_some_iff (hl.filter p)]
    simp only [Option.isSome_none, Bool.false_eq_true, if_false, held_eq_some_iff hl]
    constructor
    · rintro ⟨y, hy, hyv⟩
      exact ⟨y, (mem_filter.mp hy).1, hyv⟩
    · rintro ⟨y, hy, hyv⟩
      have hpy : p y ≠ false := fun h => by simp [(hp y hy).mp h, hv] at hyv
      exact ⟨y, mem_filter.mpr ⟨hy, by simpa using hpy⟩, hyv⟩
  · refine held_eq_none_iff.mpr fun y hy => ?_
    obtain ⟨hmem, hpy⟩ := mem_filter.mp hy
    have hyx : y ≠ x := by
      rintro rfl
      simp [(hp y hmem).mpr rfl] at hpy
    exact (hl.forall hmem hx hyx k).resolve_right (by simp [hv])

end Owned
