/-
Runs of a deterministic system: a step function folded over a list of inputs.

* `Along` — a condition that holds at every step of a run, in the state the step
  starts from;
* `exists_opening`, `exists_opening_of_inv` — what is there at the end was put there at one of
  the steps, and kept by the steps after it.

A step that is not always enabled gives `none`.  For runs of such steps:

* `exec_change` — what comes to hold during a run comes to hold at one of its steps;
* `exec_keeps` — what every step keeps holds at the end.
-/
import Mathlib.Data.List.Induction

namespace Runs

variable {σ κ : Type} (step : σ → κ → σ) (P Q : σ → κ → Prop) (Inv : σ → Prop)

/-- The condition holds at every step of the run from `s` over the inputs. -/
def Along : σ → List κ → Prop
  | _, [] => True
  | s, c :: cs => P s c ∧ Along (step s c) cs

instance decidableAlong [∀ s c, Decidable (P s c)] : ∀ s cs, Decidable (Along step P s cs)
  | _, [] => .isTrue trivial
  | s, c :: cs =>
    have : Decidable (Along step P (step s c) cs) := decidableAlong _ _
    inferInstanceAs (Decidable (_ ∧ _))

variable {step P Q Inv} {s : σ} {cs : List κ}

theorem Along.take (h : Along step P s cs) (n : ℕ) : Along step P s (cs.take n) := by
  induction cs generalizing s n with
  | nil => rw [List.take_nil]; exact h
  | cons c cs ih =>
    rcases n with _ | n
    · exact trivial
    · exact ⟨h.1, ih h.2 n⟩

theorem Along.imp (hPQ : ∀ s c, P s c → Q s c) (h : Along step P s cs) : Along step Q s cs := by
  induction cs generalizing s with
  | nil => exact trivial
  | cons c cs ih => exact ⟨hPQ s c h.1, ih h.2⟩

theorem Along.and (h : Along step P s cs) (h' : Along step Q s cs) :
    Along step (fun s c => P s c ∧ Q s c) s cs := by
  induction cs generalizing s with
  | nil => exact trivial
  | cons c cs ih => exact ⟨⟨h.1, h'.1⟩, ih h.2 h'.2⟩

variable (Inv) in
/-- Two conditions that agree in every state of an invariant agree along a run, if the steps
that meet them keep the invariant. -/
theorem Along.congr (hPQ : ∀ s c, Inv s → (P s c ↔ Q s c))
    (hstep : ∀ s c, Inv s → Q s c → Inv (step s c)) (hs : Inv s) :
    Along step P s cs ↔ Along step Q s cs := by
  induction cs generalizing s with
  | nil => exact Iff.rfl
  | cons c cs ih =>
    constructor
    · rintro ⟨hP, h⟩
      have hQ := (hPQ s c hs).mp hP
      exact ⟨hQ, (ih (hstep s c hs hQ)).mp h⟩
    · rintro ⟨hQ, h⟩
      exact ⟨(hPQ s c hs).mpr hQ, (ih (hstep s c hs hQ)).mpr h⟩

variable (hstep : ∀ s c, Inv s → P s c → Inv (step s c))

include hstep

/-- An invariant kept by every step that meets the condition holds at the end. -/
theorem Along.final (h : Along step P s cs) (hs : Inv s) : Inv (cs.foldl step s) := by
  induction cs generalizing s with
  | nil => exact hs
  | cons c cs ih => exact ih h.2 (hstep s c hs h.1)

/-- … and in every state on the way. -/
theorem Along.invariant (h : Along step P s cs)
    (hs : Inv s) (n : ℕ) : Inv ((cs.take n).foldl step s) :=
  (h.take n).final hstep hs

omit hstep

theorem Along.append {cs' : List κ} (h : Along step P s cs)
    (h' : Along step P (cs.foldl step s) cs') : Along step P s (cs ++ cs') := by
  induction cs generalizing s with
  | nil => exact h'
  | cons c cs ih => exact ⟨h.1, ih h.2 h'⟩

theorem Along.concat (h : Along step P s cs) {c : κ} (hc : P (cs.foldl step s) c) :
    Along step P s (cs ++ [c]) :=
  h.append ⟨hc, trivial⟩

section Openings

variable {E : Type} (look : σ → Option E) (Good : E → Prop) (Opens : σ → κ → Prop)
  (Keeps : σ → κ → E → E → Prop)

variable (step s cs Inv) in
/-- A good element that is there at the end, and not at the start, was put there at one of the
steps, and each step after it kept it and kept it good. -/
theorem exists_opening_of_inv (hinv : Inv s) (hkeep : ∀ s c, Inv s → Inv (step s c))
    (hs : ∀ e, look s = some e → ¬ Good e)
    (hstep : ∀ s c e', Inv s → look (step s c) = some e' → Good e' →
      Opens s c ∨ ∃ e, look s = some e ∧ Good e ∧ Keeps s c e e')
    {e : E} (he : look (cs.foldl step s) = some e) (hgood : Good e) :
    ∃ cs₁ c cs₂, cs = cs₁ ++ c :: cs₂ ∧ Opens (cs₁.foldl step s) c ∧
      Along step (fun s c => ∃ e e', look s = some e ∧ look (step s c) = some e' ∧ Good e ∧
        Good e' ∧ Keeps s c e e') (step (cs₁.foldl step s) c) cs₂ := by
  induction cs using List.reverseRecOn generalizing e with
  | nil => exact absurd hgood (hs e he)
  | append_singleton cs c ih =>
    rw [List.foldl_append] at he
    have hinv' : Inv (cs.foldl step s) := List.foldlRecOn cs step hinv fun s h c _ => hkeep s c h
    obtain hopens | ⟨e₀, he₀, hgood₀, hkeeps⟩ := hstep _ c e hinv' he hgood
    · exact ⟨cs, c, [], rfl, hopens, trivial⟩
    · obtain ⟨cs₁, c₁, cs₂, rfl, hopens, halong⟩ := ih he₀ hgood₀
      refine ⟨cs₁, c₁, cs₂ ++ [c], by simp, hopens, halong.concat ?_⟩
      rw [List.foldl_append] at he he₀ hkeeps
      exact ⟨e₀, e, he₀, he, hgood₀, hgood, hkeeps⟩

variable (step s cs) in
/-- … if every state keeps it so. -/
theorem exists_opening (hs : ∀ e, look s = some e → ¬ Good e)
    (hstep : ∀ s c e', look (step s c) = some e' → Good e' →
      Opens s c ∨ ∃ e, look s = some e ∧ Good e ∧ Keeps s c e e')
    {e : E} (he : look (cs.foldl step s) = some e) (hgood : Good e) :
    ∃ cs₁ c cs₂, cs = cs₁ ++ c :: cs₂ ∧ Opens (cs₁.foldl step s) c ∧
      Along step (fun s c => ∃ e e', look s = some e ∧ look (step s c) = some e' ∧ Good e ∧
        Good e' ∧ Keeps s c e e') (step (cs₁.foldl step s) c) cs₂ :=
  exists_opening_of_inv step (fun _ => True) s cs look Good Opens Keeps trivial
    (fun _ _ _ => trivial) hs (fun s c e' _ => hstep s c e') he hgood

end Openings

/-! ### Steps that may not be enabled -/

section Exec

variable (next : σ → κ → Option σ)

/-- The state after the inputs, `none` if one of the steps is not enabled. -/
def exec : σ → List κ → Option σ
  | s, [] => some s
  | s, c :: cs => (next s c).bind fun s₁ => exec s₁ cs

variable {next} {s' : σ} {c : κ} {cs₁ cs₂ : List κ}

theorem exec_cons_eq_some :
    exec next s (c :: cs) = some s' ↔ ∃ s₁, next s c = some s₁ ∧ exec next s₁ cs = some s' :=
  Option.bind_eq_some_iff

theorem exec_append_eq_some : exec next s (cs₁ ++ cs₂) = some s' ↔
      ∃ s₁, exec next s cs₁ = some s₁ ∧ exec next s₁ cs₂ = some s' := by
  induction cs₁ generalizing s with
  | nil => simp [exec]
  | cons c cs₁ ih =>
    simp only [List.cons_append, exec_cons_eq_some, ih]
    constructor
    · rintro ⟨s₁, hc, s₂, h₁, h₂⟩
      exact ⟨s₂, ⟨s₁, hc, h₁⟩, h₂⟩
    · rintro ⟨s₂, ⟨s₁, hc, h₁⟩, h₂⟩
      exact ⟨s₁, hc, s₂, h₁, h₂⟩

variable (Inv) in
/-- What does not hold at the start and holds at the end comes to hold at a step. -/
theorem exec_change (hrun : exec next s cs = some s') (hs : ¬ Inv s) (hs' : Inv s') :
    ∃ cs₁ c cs₂ s₁ s₂, cs = cs₁ ++ c :: cs₂ ∧ exec next s cs₁ = some s₁ ∧
      next s₁ c = some s₂ ∧ ¬ Inv s₁ ∧ Inv s₂ := by
  induction cs generalizing s with
  | nil => exact absurd (Option.some.inj hrun ▸ hs') hs
  | cons c cs ih =>
    obtain ⟨s₁, hc, hcs⟩ := exec_cons_eq_some.mp hrun
    by_cases h₁ : Inv s₁
    · exact ⟨[], c, cs, s, s₁, rfl, rfl, hc, hs, h₁⟩
    · obtain ⟨cs₁, d, cs₂, t₁, t₂, rfl, ht₁, hd, hn, hp⟩ := ih hcs h₁
      exact ⟨c :: cs₁, d, cs₂, t₁, t₂, rfl, exec_cons_eq_some.mpr ⟨s₁, hc, ht₁⟩, hd, hn, hp⟩

variable (Inv) in
theorem exec_keeps (hnext : ∀ s c s₁, next s c = some s₁ → Inv s → Inv s₁)
    (hrun : exec next s cs = some s') (hs : Inv s) : Inv s' := by
  induction cs generalizing s with
  | nil => exact Option.some.inj hrun ▸ hs
  | cons c cs ih =>
    obtain ⟨s₁, hc, hcs⟩ := exec_cons_eq_some.mp hrun
    exact ih hcs (hnext s c s₁ hc hs)

end Exec

end Runs
