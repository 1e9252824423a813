/-
Pre- and postconditions for computations that may stop with an error.

`Returns x P` says that `x` does not stop and that its result meets `P`: total correctness.  A
function is verified by following its body with the rules for `pure`, for a sequence and for a
condition, and its callers then use its statement in place of its body.
-/
import Netbird.Lib.Wire

/-- The computation returns a result with the property. -/
def Returns {ε α : Type} (x : Except ε α) (P : α → Prop) : Prop :=
  ∃ a, x = .ok a ∧ P a

section Rules

variable {ε α β : Type} {x y : Except ε α} {P Q : α → Prop}

theorem Returns.pure {a : α} (h : P a) : Returns (pure a : Except ε α) P :=
  ⟨a, rfl, h⟩

theorem Returns.bind {f : α → Except ε β} {R : β → Prop} (hx : Returns x P)
    (hf : ∀ a, P a → Returns (f a) R) : Returns (x >>= f) R := by
  obtain ⟨a, rfl, ha⟩ := hx
  exact hf a ha

theorem Returns.ite {c : Prop} [Decidable c] (hpos : c → Returns x P) (hneg : ¬ c → Returns y P) :
    Returns (if c then x else y) P := by
  split_ifs with h
  · exact hpos h
  · exact hneg h

theorem Returns.mono (hx : Returns x P) (h : ∀ a, P a → Q a) : Returns x Q := by
  obtain ⟨a, rfl, ha⟩ := hx
  exact ⟨a, rfl, h a ha⟩

theorem Returns.of_eq_ok (hx : Returns x P) {a : α} (h : x = .ok a) : P a := by
  obtain ⟨b, rfl, hb⟩ := hx
  exact Except.ok.inj h ▸ hb

theorem returns_iff_ok : Returns x (fun _ => True) ↔ ∃ a, x = .ok a :=
  exists_congr fun _ => and_iff_left trivial

theorem returns_foldlM {σ : Type} {f : σ → α → Except ε σ} {l : List α}
    (h : ∀ a ∈ l, ∀ s, Returns (f s a) fun _ => True) (s : σ) :
    Returns (l.foldlM f s) fun _ => True :=
  returns_iff_ok.mpr (Except.foldlM_total (fun a ha s => returns_iff_ok.mp (h a ha s)) s)

theorem returns_mapM {f : α → Except ε β} {l : List α} (h : ∀ a ∈ l, Returns (f a) fun _ => True) :
    Returns (l.mapM f) fun r => List.Forall₂ (fun a b => f a = .ok b) l r := by
  obtain ⟨r, hr⟩ := Except.mapM_total fun a ha => returns_iff_ok.mp (h a ha)
  exact ⟨r, hr, Except.mapM_eq_ok.mp hr⟩

end Rules

section Operations

variable {α : Type} {data : List UInt8} {i : ℕ}

theorem returns_index {l : List α} (h : i < l.length) :
    Returns (Checked.index l i) fun a => l[i]? = some a :=
  ⟨l[i], Checked.index_eq_ok h, List.getElem?_eq_getElem h⟩

theorem Returns.bind_index {β : Type} {l : List α} {a : α} {f : α → Except Panic β}
    {R : β → Prop} (h : l[i]? = some a) (hf : Returns (f a) R) :
    Returns (Checked.index l i >>= f) R := by
  rw [Checked.index_of_getElem? h]
  exact hf

theorem returns_mapM_index {l : List α} {n : ℕ} (h : n ≤ l.length) :
    Returns ((List.range n).mapM (Checked.index l)) fun r => r = l.take n := by
  refine ⟨l.take n, Except.mapM_eq_ok.mpr ?_, rfl⟩
  refine List.forall₂_iff_get.mpr ⟨by rw [List.length_range, List.length_take]; omega, ?_⟩
  intro i hi hi'
  rw [List.length_range] at hi
  simpa using Checked.index_eq_ok (by omega)

theorem returns_slice {lo hi : ℕ} (h : lo ≤ hi) (hhi : hi ≤ data.length) :
    Returns (Checked.slice data lo hi) fun s => s.length = hi - lo := by
  refine ⟨_, Checked.slice_eq_ok h hhi, ?_⟩
  simp only [List.length_take, List.length_drop]
  omega

theorem returns_deref {p : Option α} (h : p.isSome = true) :
    Returns (Checked.deref p) fun a => p = some a := by
  obtain ⟨a, rfl⟩ := Option.isSome_iff_exists.mp h
  exact ⟨a, rfl, rfl⟩

theorem returns_getUint16 (h : i + 2 ≤ data.length) :
    Returns (Wire.getUint16 data i) fun v => v = Wire.be16 data i :=
  ⟨_, Wire.getUint16_eq_ok h, rfl⟩

theorem returns_sumAt {positions : List ℕ} (h : ∀ i ∈ positions, i + 2 ≤ data.length) :
    Returns (Wire.sumAt data positions) fun _ => True :=
  returns_foldlM (fun i hi _ => (returns_getUint16 (h i hi)).bind fun _ _ => .pure trivial) 0

/-- A write at a position leaves the bytes before it alone. -/
theorem returns_write {n off : ℕ} {src : List UInt8} (h : off + src.length ≤ data.length)
    (hn : n ≤ off) : Returns (Wire.write data off src) (Wire.Agree (· < n) data) :=
  ⟨_, Wire.write_eq_ok h,
    ((Wire.agree_copyAt h).mono fun _ hi => .inl (Nat.lt_of_lt_of_le hi hn)).symm⟩

theorem returns_putUint16 {n : ℕ} {v : UInt16} (h : i + 2 ≤ data.length) (hn : n ≤ i) :
    Returns (Wire.putUint16 data i v) (Wire.Agree (· < n) data) :=
  returns_write h hn

theorem returns_setByte {n : ℕ} {b : UInt8} (h : i < data.length) (hn : n ≤ i) :
    Returns (Wire.setByte data i b) (Wire.Agree (· < n) data) :=
  ⟨_, if_pos h,
    ((Wire.agree_copyAt h).mono fun _ hi => .inl (Nat.lt_of_lt_of_le hi hn)).symm⟩

end Operations
