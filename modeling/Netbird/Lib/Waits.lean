/-
Threads that wait for what other threads hold.

A resource is a lock, which one thread holds, or a wait group, which all the threads hold that it
waits for.  A set of threads is deadlocked if each of them waits for a resource that is held by
members of the set only.

* `Deadlocked.pair` — two threads that hold what the other one waits for.
-/
import Mathlib.Data.Set.Basic

namespace Waits

variable {T R : Type} {wants : T → Option R} {holds : R → T → Prop}

variable (wants holds) in
/-- Each of the threads waits for a resource, and only members of the set can release it. -/
def Deadlocked (threads : Set T) : Prop :=
  threads.Nonempty ∧ ∀ t ∈ threads, ∃ x, wants t = some x ∧ (∃ h, holds x h) ∧
    ∀ h, holds x h → h ∈ threads

namespace Deadlocked

variable {threads : Set T} {t h : T} {x : R} (hd : Deadlocked wants holds threads)

include hd

theorem exists_holder (ht : t ∈ threads) (hx : wants t = some x) : ∃ h ∈ threads, holds x h := by
  obtain ⟨y, hy, ⟨h, hh⟩, hall⟩ := hd.2 t ht
  obtain rfl : y = x := Option.some.inj (hy.symm.trans hx)
  exact ⟨h, hall h hh, hh⟩

theorem holder (ht : t ∈ threads) (hx : wants t = some x) (hh : holds x h) : h ∈ threads := by
  obtain ⟨y, hy, -, hall⟩ := hd.2 t ht
  obtain rfl : y = x := Option.some.inj (hy.symm.trans hx)
  exact hall h hh

theorem wants_isSome (ht : t ∈ threads) : (wants t).isSome := by
  obtain ⟨x, hx, -⟩ := hd.2 t ht
  simp [hx]

omit hd

/-- Two threads, each the only one that holds what the other waits for. -/
theorem pair {y : R} (ht : wants t = some x) (hh : wants h = some y)
    (hx : ∀ t', holds x t' ↔ t' = h) (hy : ∀ t', holds y t' ↔ t' = t) :
    Deadlocked wants holds {t, h} := by
  refine ⟨⟨t, .inl rfl⟩, ?_⟩
  rintro t' (rfl | rfl)
  · exact ⟨x, ht, ⟨h, (hx h).mpr rfl⟩, fun t' ht' => .inr ((hx t').mp ht')⟩
  · exact ⟨y, hh, ⟨t, (hy t).mpr rfl⟩, fun t' ht' => .inl ((hy t').mp ht')⟩

end Deadlocked

end Waits
