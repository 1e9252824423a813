/-
A pool of threads over a shared state.

Each thread is at a place of its own; one step of the pool lets one thread do its next
atomic operation, which may change the shared state and moves the thread on.  A schedule
is the list of the threads that are given a step, in order, so a statement about all
schedules is a statement about all interleavings.
-/
import Mathlib.Data.List.Basic
import Mathlib.Data.List.Induction

structure Pool (σ τ : Type) where
  shared : σ
  threads : List τ

namespace Pool

variable {σ τ : Type} (advance : σ → τ → σ × τ)

/-- Thread `i` does its next operation; a number without a thread is skipped. -/
def step (s : Pool σ τ) (i : ℕ) : Pool σ τ :=
  match s.threads[i]? with
  | none => s
  | some t => ⟨(advance s.shared t).1, s.threads.set i (advance s.shared t).2⟩

def run (s : Pool σ τ) (schedule : List ℕ) : Pool σ τ :=
  schedule.foldl (step advance) s

variable {advance} {s : Pool σ τ} {i : ℕ}

theorem step_of_none (h : s.threads[i]? = none) : step advance s i = s := by
  rw [step, h]

theorem step_of_some {t : τ} (h : s.threads[i]? = some t) :
    step advance s i = ⟨(advance s.shared t).1, s.threads.set i (advance s.shared t).2⟩ := by
  rw [step, h]

theorem step_cases (advance : σ → τ → σ × τ) (s : Pool σ τ) (i : ℕ) :
    (s.threads[i]? = none ∧ step advance s i = s) ∨
      ∃ left t right, s.threads = left ++ t :: right ∧ left.length = i ∧ step advance s i =
          ⟨(advance s.shared t).1, left ++ (advance s.shared t).2 :: right⟩ := by
  rcases h : s.threads[i]? with _ | t
  · exact .inl ⟨rfl, step_of_none h⟩
  · obtain ⟨hi, ht⟩ := List.getElem?_eq_some_iff.mp h
    refine .inr ⟨s.threads.take i, t, s.threads.drop (i + 1), ?_, ?_, ?_⟩
    · rw [← ht, List.getElem_cons_drop, List.take_append_drop]
    · exact List.length_take_of_le (Nat.le_of_lt hi)
    · rw [step_of_some h, List.set_eq_take_append_cons_drop, if_pos hi]

theorem run_concat (s : Pool σ τ) (schedule : List ℕ) (i : ℕ) :
    run advance s (schedule ++ [i]) = step advance (run advance s schedule) i := by
  rw [run, List.foldl_append]
  rfl

end Pool
