/-
Commands: computations that read and write a state and may fail.

A failed command keeps the state it has reached, as a sequence of independent
database statements does.  `transaction` is the exception: it puts the state back.

* `transaction_cases` — a transaction ends as its body does, or fails and changes
  nothing;
* `Ensures` — a relation between the state before and after that holds however
  the command ends, with the rules `Ensures.bind`, `Ensures.transaction`, ….
-/
import Mathlib.Order.Defs.Unbundled

/-- A command on states `σ` with errors `ε` and results `α`. -/
def Command (σ ε α : Type) : Type :=
  σ → Except ε α × σ

namespace Command

variable {σ ε α β : Type}

instance : Monad (Command σ ε) where
  pure a := fun s => (.ok a, s)
  bind x f := fun s =>
    match x s with
    | (.ok a, s') => f a s'
    | (.error e, s') => (.error e, s')

def fail (e : ε) : Command σ ε α :=
  fun s => (.error e, s)

def reads (f : σ → α) : Command σ ε α :=
  fun s => (.ok (f s), s)

/-- Read off the state, with an error. -/
def readsExcept (f : σ → Except ε α) : Command σ ε α :=
  fun s => (f s, s)

/-- Replace the state, or fail and leave it. -/
def update (f : σ → Except ε σ) : Command σ ε Unit :=
  fun s =>
    match f s with
    | .ok s' => (.ok (), s')
    | .error e => (.error e, s)

def write (f : σ → σ) : Command σ ε Unit :=
  fun s => (.ok (), f s)

def ofResult (r : Except ε α) : Command σ ε α :=
  fun s => (r, s)

def mapError {ε' : Type} (f : ε → ε') (x : Command σ ε α) : Command σ ε' α :=
  fun s =>
    match x s with
    | (.ok a, s') => (.ok a, s')
    | (.error e, s') => (.error (f e), s')

/-- Run the command and hand its error over as a value. -/
def attempt (x : Command σ ε α) : Command σ ε (Except ε α) :=
  fun s => (.ok (x s).1, (x s).2)

/-- Run the command; if it fails, put the state back. -/
def transaction (x : Command σ ε α) : Command σ ε α :=
  fun s =>
    match x s with
    | (.ok a, s') => (.ok a, s')
    | (.error e, _) => (.error e, s)

/-! ### Equations -/

@[simp] theorem pure_apply (a : α) (s : σ) : (pure a : Command σ ε α) s = (.ok a, s) := rfl

@[simp] theorem fail_apply (e : ε) (s : σ) : (fail e : Command σ ε α) s = (.error e, s) := rfl

@[simp] theorem reads_apply (f : σ → α) (s : σ) : (reads f : Command σ ε α) s = (.ok (f s), s) :=
  rfl

@[simp] theorem readsExcept_apply (f : σ → Except ε α) (s : σ) :
    (readsExcept f : Command σ ε α) s = (f s, s) :=
  rfl

@[simp] theorem ofResult_apply (r : Except ε α) (s : σ) : (ofResult r : Command σ ε α) s = (r, s) :=
  rfl

variable {r : Except ε α}

theorem readsExcept_of {f : σ → Except ε α} {s : σ} (h : f s = r) : readsExcept f s = (r, s) := by
  rw [readsExcept_apply, h]

variable {s s' : σ}

theorem update_eq_ok {f : σ → Except ε σ} {u : Unit} : update f s = (.ok u, s') ↔ f s = .ok s' := by
  simp only [update]
  cases f s <;> simp

variable {x : Command σ ε α} {f : α → Command σ ε β} {a : α}

theorem bind_of_ok (h : x s = (.ok a, s')) : (x >>= f) s = f a s' := by
  simp only [bind, h]

theorem bind_of_error {e : ε} (h : x s = (.error e, s')) : (x >>= f) s = (.error e, s') := by
  simp only [bind, h]

theorem result_cases (x : Command σ ε α) (s : σ) :
    (∃ a s', x s = (.ok a, s')) ∨ ∃ e s', x s = (.error e, s') := by
  obtain ⟨r, s'⟩ := x s
  rcases r with e | a
  · exact .inr ⟨e, s', rfl⟩
  · exact .inl ⟨a, s', rfl⟩

theorem ofResult_bind_ok (a : α) (f : α → Command σ ε β) : (ofResult (.ok a) >>= f) = f a :=
  rfl

theorem attempt_bind_of_ok {f : Except ε α → Command σ ε β}
    (h : x s = (.ok a, s')) : (attempt x >>= f) s = f (.ok a) s' :=
  bind_of_ok (by simp only [attempt, h])

theorem attempt_bind_of_error {f : Except ε α → Command σ ε β}
    {e : ε} (h : x s = (.error e, s')) : (attempt x >>= f) s = f (.error e) s' :=
  bind_of_ok (by simp only [attempt, h])

variable {ε' : Type}

theorem mapError_of_ok {f : ε → ε'} (h : x s = (.ok a, s')) : mapError f x s = (.ok a, s') := by
  simp only [mapError, h]

theorem mapError_of_error {f : ε → ε'} {e : ε}
    (h : x s = (.error e, s')) : mapError f x s = (.error (f e), s') := by
  simp only [mapError, h]

theorem mapError_snd (f : ε → ε') (x : Command σ ε α) (s : σ) : (mapError f x s).2 = (x s).2 := by
  rcases result_cases x s with ⟨a, s', h⟩ | ⟨e, s', h⟩ <;> simp only [mapError, h]

theorem mapError_eq_ok {f : ε → ε'} : mapError f x s = (.ok a, s') ↔ x s = (.ok a, s') := by
  rcases result_cases x s with ⟨b, s₁, h⟩ | ⟨e, s₁, h⟩
  · rw [mapError_of_ok h, h]
    simp
  · rw [mapError_of_error h, h]
    simp

theorem mapError_ofResult_eq_ok {f : ε → ε'} :
    mapError f (ofResult r) s = (.ok a, s') ↔ r = .ok a ∧ s = s' := by
  rw [mapError_eq_ok, ofResult_apply, Prod.mk.injEq]

theorem write_bind {f : σ → σ} {g : Unit → Command σ ε β} {s : σ} :
    (write f >>= g) s = g () (f s) :=
  bind_of_ok rfl

theorem bind_eq_ok {b : β} :
    (x >>= f) s = (.ok b, s') ↔ ∃ a s₁, x s = (.ok a, s₁) ∧ f a s₁ = (.ok b, s') := by
  constructor
  · intro h
    rcases result_cases x s with ⟨a, s₁, hx⟩ | ⟨e, s₁, hx⟩
    · rw [bind_of_ok hx] at h
      exact ⟨a, s₁, hx, h⟩
    · rw [bind_of_error hx] at h
      cases h
  · rintro ⟨a, s₁, hx, hf⟩
    rw [bind_of_ok hx, hf]

theorem write_eq_ok {f : σ → σ} {u : Unit} :
    (write f : Command σ ε Unit) s = (.ok u, s') ↔ s' = f s := by
  simp [write, eq_comm]

theorem ite_fail_eq_ok {p : Prop} [Decidable p] {e : ε} :
    (if p then fail e else x) s = (.ok a, s') ↔ ¬ p ∧ x s = (.ok a, s') := by
  split <;> simp [*]

/-- A sequence stops at the error of its first command, or goes on with its result. -/
theorem bind_cases (x : Command σ ε α) (f : α → Command σ ε β) (s : σ) :
    (∃ e s₁, x s = (.error e, s₁) ∧ (x >>= f) s = (.error e, s₁)) ∨
      ∃ a s₁, x s = (.ok a, s₁) ∧ (x >>= f) s = f a s₁ := by
  rcases result_cases x s with ⟨a, s₁, hx⟩ | ⟨e, s₁, hx⟩
  · exact .inr ⟨a, s₁, hx, bind_of_ok hx⟩
  · exact .inl ⟨e, s₁, hx, bind_of_error hx⟩

/-- A transaction ends as its body does, or fails and changes nothing. -/
theorem transaction_cases (x : Command σ ε α) (s : σ) :
    (∃ a s', x s = (.ok a, s') ∧ transaction x s = (.ok a, s')) ∨
      ∃ e s', x s = (.error e, s') ∧ transaction x s = (.error e, s) := by
  rcases result_cases x s with ⟨a, s', hx⟩ | ⟨e, s', hx⟩
  · exact .inl ⟨a, s', hx, by simp only [transaction, hx]⟩
  · exact .inr ⟨e, s', hx, by simp only [transaction, hx]⟩

theorem transaction_of_ok (h : x s = (.ok a, s')) : transaction x s = (.ok a, s') := by
  simp only [transaction, h]

theorem transaction_of_error {e : ε} (h : x s = (.error e, s')) :
    transaction x s = (.error e, s) := by
  simp only [transaction, h]

/-! ### What holds however a command ends -/

/-- The relation holds between the states before and after the command. -/
def Ensures (R : σ → σ → Prop) (x : Command σ ε α) : Prop :=
  ∀ s, R s (x s).2

namespace Ensures

variable {R : σ → σ → Prop}

theorem pure [Std.Refl R] (a : α) : Ensures R (Pure.pure a : Command σ ε α) :=
  fun s => refl_of R s

theorem fail [Std.Refl R] (e : ε) : Ensures R (Command.fail e : Command σ ε α) :=
  fun s => refl_of R s

theorem reads [Std.Refl R] (f : σ → α) : Ensures R (Command.reads f : Command σ ε α) :=
  fun s => refl_of R s

theorem readsExcept [Std.Refl R] (f : σ → Except ε α) :
    Ensures R (Command.readsExcept f : Command σ ε α) :=
  fun s => refl_of R s

theorem ofResult [Std.Refl R] (r : Except ε α) : Ensures R (Command.ofResult r : Command σ ε α) :=
  fun s => refl_of R s

theorem update [Std.Refl R] {f : σ → Except ε σ} (h : ∀ s s', f s = .ok s' → R s s') :
    Ensures R (Command.update f) := by
  intro s
  simp only [Command.update]
  rcases hf : f s with e | s'
  · exact refl_of R s
  · exact h s s' hf

theorem write {f : σ → σ} (h : ∀ s, R s (f s)) : Ensures R (Command.write f : Command σ ε Unit) :=
  h

theorem bind [IsTrans σ R] (hx : Ensures R x)
    (hf : ∀ a, Ensures R (f a)) : Ensures R (x >>= f) := by
  intro s
  have hs := hx s
  rcases bind_cases x f s with ⟨e, s₁, hxe, h⟩ | ⟨a, s₁, hxa, h⟩
  · rw [h]
    rw [hxe] at hs
    exact hs
  · rw [h]
    rw [hxa] at hs
    exact trans_of R hs (hf a s₁)

theorem attempt (hx : Ensures R x) : Ensures R (Command.attempt x) :=
  hx

theorem mapError (f : ε → ε') (hx : Ensures R x) : Ensures R (Command.mapError f x) := by
  intro s
  have hs := hx s
  simp only [Command.mapError]
  rcases result_cases x s with ⟨a, s', h⟩ | ⟨e, s', h⟩ <;> rw [h] at hs ⊢ <;> exact hs

theorem forM [Std.Refl R] [IsTrans σ R] {f : β → Command σ ε PUnit} (hf : ∀ b, Ensures R (f b))
    (l : List β) : Ensures R (l.forM f) := by
  induction l with
  | nil => exact Ensures.pure _
  | cons b l ih => exact Ensures.bind (hf b) fun _ => ih

theorem of_eq (hx : Ensures R x) (h : x s = (r, s')) : R s s' := by
  have hs := hx s
  rw [h] at hs
  exact hs

theorem transaction [Std.Refl R] (hx : Ensures R x) : Ensures R (Command.transaction x) := by
  intro s
  rcases transaction_cases x s with ⟨a, s', hxa, h⟩ | ⟨e, s', -, h⟩
  · rw [h, ← congrArg Prod.snd hxa]
    exact hx s
  · rw [h]
    exact refl_of R s

end Ensures

/-- A command that only reads: a sequence that begins with it stops where it was, or
goes on from there. -/
theorem bind_cases_of_reads (h : Ensures (· = ·) x) (f : α → Command σ ε β) (s : σ) :
    (∃ e, x s = (.error e, s) ∧ (x >>= f) s = (.error e, s)) ∨
      ∃ a, x s = (.ok a, s) ∧ (x >>= f) s = f a s := by
  have hs := h s
  rcases bind_cases x f s with ⟨e, s₁, hx, hb⟩ | ⟨a, s₁, hx, hb⟩
  · rw [hx] at hs
    obtain rfl : s = s₁ := hs
    exact .inl ⟨e, hx, hb⟩
  · rw [hx] at hs
    obtain rfl : s = s₁ := hs
    exact .inr ⟨a, hx, hb⟩

end Command
