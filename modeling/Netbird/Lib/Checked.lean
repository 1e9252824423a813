/-
Run-time panics and checked access to byte sequences.

A Go expression such as `data[i]`, `s[:16]` or `p.Field` stops the goroutine
when the index is out of range or the pointer is nil.  Here such an expression
is a value of `Except Panic α`, so that "this function never panics" is the
statement `∃ a, f x = .ok a` and not an assumption of the model.

Each access comes with the condition under which it succeeds; `Except.bind_eq_ok`,
`Except.mapM_eq_ok` and `Except.foldlM_invariant` do the same for sequences and loops.
-/
import Mathlib.Data.List.Forall2

/-- Why a Go program stopped. -/
inductive Panic where
  | indexOutOfRange
  | sliceOutOfRange
  | nilDereference
  deriving DecidableEq

variable {ε α β σ : Type} {f : α → Except ε β} {l : List α}

theorem Except.ok_bind (a : α) (f : α → Except ε β) :
    ((.ok a : Except ε α) >>= f) = f a := rfl

theorem Except.bind_eq_ok {x : Except ε α} {b : β} :
    (x >>= f) = .ok b ↔ ∃ a, x = .ok a ∧ f a = .ok b := by
  rcases x with e | a
  · simp [bind, Except.bind]
  · simp [bind, Except.bind]

theorem Except.map_eq_ok {x : Except ε α} {f : α → β} {b : β} :
    x.map f = .ok b ↔ ∃ a, x = .ok a ∧ f a = b := by
  rcases x with e | a
  · simp [Except.map]
  · simp [Except.map]

/-- Two computations return, if something of what they return is known. -/
theorem Except.exists_both {x y : Except ε α} {u v : β} {P : α → α → Prop} (f : α → β)
    (hx : x.map f = .ok u) (hy : y.map f = .ok v)
    (h : ∀ a b, x = .ok a → y = .ok b → f a = u → f b = v → P a b) :
    ∃ a b, x = .ok a ∧ y = .ok b ∧ P a b := by
  obtain ⟨a, ha, hu⟩ := map_eq_ok.mp hx
  obtain ⟨b, hb, hv⟩ := map_eq_ok.mp hy
  exact ⟨a, b, ha, hb, h a b ha hb hu hv⟩

theorem Except.foldlM_invariant {P : σ → Prop} {f : σ → α → Except ε σ}
    {s s' : σ} (h : l.foldlM f s = .ok s') (hs : P s)
    (hstep : ∀ a ∈ l, ∀ s s', f s a = .ok s' → P s → P s') : P s' := by
  induction l generalizing s with
  | nil =>
    obtain rfl := ok.inj h
    exact hs
  | cons a l ih =>
    obtain ⟨s₁, h₁, hl⟩ := bind_eq_ok.mp h
    exact ih hl (hstep a List.mem_cons_self s s₁ h₁ hs)
      fun b hb => hstep b (List.mem_cons_of_mem a hb)

theorem Except.foldlM_total {f : σ → α → Except ε σ}
    (h : ∀ a ∈ l, ∀ s, ∃ s', f s a = .ok s') (s : σ) : ∃ s', l.foldlM f s = .ok s' := by
  induction l generalizing s with
  | nil => exact ⟨s, rfl⟩
  | cons a l ih =>
    obtain ⟨s₁, h₁⟩ := h a List.mem_cons_self s
    obtain ⟨s', hl⟩ := ih (fun b hb => h b (List.mem_cons_of_mem a hb)) s₁
    exact ⟨s', by rw [List.foldlM_cons, h₁]; exact hl⟩

theorem Except.mapM_eq_ok {r : List β} :
    l.mapM f = .ok r ↔ List.Forall₂ (fun a b => f a = .ok b) l r := by
  induction l generalizing r with
  | nil =>
    rw [List.forall₂_nil_left_iff]
    exact ⟨fun h => (ok.inj h).symm, fun h => by rw [h]; rfl⟩
  | cons a l ih =>
    rw [List.mapM_cons, bind_eq_ok]
    constructor
    · rintro ⟨b, hb, h⟩
      obtain ⟨bs, hbs, hr⟩ := bind_eq_ok.mp h
      obtain rfl := ok.inj hr
      exact .cons hb (ih.mp hbs)
    · intro h
      cases h with
      | cons hb hbs => exact ⟨_, hb, bind_eq_ok.mpr ⟨_, ih.mpr hbs, rfl⟩⟩

theorem List.Forall₂.exists_mem {α β : Type*} {R : α → β → Prop} {l : List α} {r : List β}
    (h : Forall₂ R l r) {a : α} (ha : a ∈ l) : ∃ b ∈ r, R a b := by
  induction h with
  | nil => cases ha
  | cons hab _ ih =>
    rcases mem_cons.mp ha with rfl | ha
    · exact ⟨_, mem_cons_self, hab⟩
    · obtain ⟨b, hb, hab⟩ := ih ha
      exact ⟨b, mem_cons_of_mem _ hb, hab⟩

theorem Except.mem_of_mapM {r : List β}
    (h : l.mapM f = .ok r) {b : β} (hb : b ∈ r) : ∃ a ∈ l, f a = .ok b :=
  (mapM_eq_ok.mp h).flip.exists_mem hb

theorem Except.mapM_total (h : ∀ a ∈ l, ∃ b, f a = .ok b) : ∃ r, l.mapM f = .ok r := by
  induction l with
  | nil => exact ⟨[], rfl⟩
  | cons a l ih =>
    obtain ⟨b, hb⟩ := h a List.mem_cons_self
    obtain ⟨bs, hbs⟩ := ih fun a' ha' => h a' (List.mem_cons_of_mem a ha')
    refine ⟨b :: bs, mapM_eq_ok.mpr (.cons hb (mapM_eq_ok.mp hbs))⟩

/-- A search ends with the first hit, so it succeeds if every test does. -/
theorem Except.anyM_eq_ok {f : α → Except ε Bool} {g : α → Bool}
    (h : ∀ a ∈ l, f a = .ok (g a)) : l.anyM f = .ok (l.any g) := by
  induction l with
  | nil => rfl
  | cons a l ih =>
    have ih := ih fun b hb => h b (List.mem_cons_of_mem a hb)
    rw [List.anyM, h a List.mem_cons_self, List.any_cons]
    cases hg : g a
    · exact ih
    · rfl

namespace Checked

open Except

def index {α : Type} (data : List α) (i : ℕ) : Except Panic α :=
  match data[i]? with
  | some b => .ok b
  | none => .error .indexOutOfRange

def slice (data : List UInt8) (lo hi : ℕ) : Except Panic (List UInt8) :=
  if lo ≤ hi ∧ hi ≤ data.length then .ok ((data.drop lo).take (hi - lo))
  else .error .sliceOutOfRange

def bytes (s : String) : List UInt8 :=
  s.toByteArray.data.toList

theorem bytes_injective {s t : String} (h : bytes s = bytes t) : s = t :=
  String.toByteArray_inj.mp (ByteArray.ext (Array.toList_inj.mp h))

/-- `s[:n]`, as the bytes it selects. -/
def slicePrefix (s : String) (n : ℕ) : Except Panic (List UInt8) :=
  if n ≤ s.utf8ByteSize then .ok ((bytes s).take n)
  else .error .sliceOutOfRange

/-- `*p` for a pointer that is `none` when nil. -/
def deref {α : Type} : Option α → Except Panic α
  | some a => .ok a
  | none => .error .nilDereference

variable {α : Type}

theorem index_eq_ok {data : List α} {i : ℕ} (h : i < data.length) : index data i = .ok data[i] := by
  rw [index, List.getElem?_eq_getElem h]

theorem index_of_getElem? {data : List α} {i : ℕ} {a : α} (h : data[i]? = some a) :
    index data i = .ok a := by
  rw [index, h]

theorem slice_eq_ok {data : List UInt8} {lo hi : ℕ} (h : lo ≤ hi) (hhi : hi ≤ data.length) :
    slice data lo hi = .ok ((data.drop lo).take (hi - lo)) :=
  if_pos ⟨h, hhi⟩

theorem slicePrefix_eq_ok {s : String} {n : ℕ} (h : n ≤ s.utf8ByteSize) :
    slicePrefix s n = .ok ((bytes s).take n) :=
  if_pos h

theorem slicePrefix_eq_error {s : String} {n : ℕ} (h : ¬ n ≤ s.utf8ByteSize) :
    slicePrefix s n = .error .sliceOutOfRange :=
  if_neg h

@[simp] theorem deref_some (a : α) : deref (some a) = .ok a := rfl

@[simp] theorem deref_none : deref (none : Option α) = .error .nilDereference := rfl

theorem mapM_deref_eq_ok {l : List (Option α)} {r : List α} :
    l.mapM deref = .ok r ↔ l = r.map some := by
  have hderef : ∀ (x : Option α) y, deref x = .ok y ↔ x = some y := by
    intro x y
    cases x <;> simp
  rw [mapM_eq_ok]
  simp only [hderef]
  constructor
  · intro h
    induction h with
    | nil => rfl
    | cons hxy _ ih => rw [hxy, ih, List.map_cons]
  · rintro rfl
    exact List.forall₂_map_left_iff.mpr (List.forall₂_same.mpr fun _ _ => rfl)

end Checked
