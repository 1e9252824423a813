/-
Byte buffers as Go code fills and reads them: `copy` into a slice of a buffer, slices of
it, a loop that copies items of one size behind each other, the loop that reads them
back, and the loop that cuts a list into chunks.

* `writeAll_eq`, `readAll_append` — items written behind a header are read back.
-/
import Mathlib.Data.List.TakeDrop
import Mathlib.Tactic.Ring

namespace Buffer

open List Nat

variable {α : Type}

/-- `copy(buf[off:], src)`: as much of `src` as fits, from position `off` on. -/
def copyAt (buf : List α) (off : ℕ) (src : List α) : List α :=
  buf.take off ++ src.take (buf.length - off) ++ buf.drop (off + src.length)

/-- `buf[lo:hi]`, for bounds that were checked before. -/
def slice (buf : List α) (lo hi : ℕ) : List α :=
  (buf.take hi).drop lo

theorem length_slice {buf : List α} {lo hi : ℕ} (h : hi ≤ buf.length) :
    (slice buf lo hi).length = hi - lo := by
  rw [slice, length_drop, length_take, min_eq_left h]

theorem not_length_append_lt {left rest : List α} {n : ℕ} (h : n = left.length) :
    ¬ (left ++ rest).length < n := by
  rw [length_append, h]
  exact not_lt.mpr (le_add_right _ _)

theorem copyAt_append {left old right src : List α} (h : old.length = src.length) :
    copyAt (left ++ old ++ right) left.length src = left ++ src ++ right := by
  have htake : (left ++ old ++ right).take left.length = left := by
    rw [append_assoc, take_left]
  have hfits : src.take ((left ++ old ++ right).length - left.length) = src := by
    refine take_of_length_le ?_
    rw [length_append, length_append]
    omega
  have hdrop : (left ++ old ++ right).drop (left.length + src.length) = right := by
    refine drop_left' ?_
    rw [length_append, h]
  rw [copyAt, htake, hfits, hdrop]

/-- Copying a first time, over the start of what is still unwritten. -/
theorem copyAt_left {left rest src : List α} {off : ℕ} (hoff : off = left.length)
    (h : src.length ≤ rest.length) :
    copyAt (left ++ rest) off src = left ++ src ++ rest.drop src.length := by
  have hold : (rest.take src.length).length = src.length := by
    rw [length_take, min_eq_left h]
  have hsplit : left ++ rest = left ++ rest.take src.length ++ rest.drop src.length := by
    rw [append_assoc, take_append_drop]
  rw [hoff, hsplit, copyAt_append hold]

/-- The same for a buffer that is filled with one value so far. -/
theorem copyAt_fill {left src : List α} {x : α} {off n : ℕ} (hoff : off = left.length) :
    copyAt (left ++ replicate (src.length + n) x) off src = left ++ src ++ replicate n x := by
  rw [copyAt_left hoff (by rw [length_replicate]; omega), drop_replicate,
    Nat.add_sub_cancel_left]

theorem slice_append {left mid right : List α} {lo hi : ℕ} (hlo : lo = left.length)
    (hhi : hi = left.length + mid.length) : slice (left ++ mid ++ right) lo hi = mid := by
  have htake : (left ++ mid ++ right).take hi = left ++ mid := by
    refine take_left' ?_
    rw [hhi, length_append]
  rw [slice, htake, hlo, drop_left]

/-! ### Items of one size -/

/-- Copy the items behind each other, from the offset on; `size` is what the offset is advanced
by. -/
def writeAll (size : ℕ) (items : List (List α)) (buf : List α) (off : ℕ) : List α × ℕ :=
  items.foldl (fun st item => (copyAt st.1 st.2 item, st.2 + size)) (buf, off)

def readAll (size n : ℕ) (buf : List α) (off : ℕ) : List (List α) :=
  (List.range n).map fun i => slice buf (off + i * size) (off + i * size + size)

variable {items : List (List α)}

theorem writeAll_eq {size : ℕ} (hsize : ∀ item ∈ items, item.length = size)
    (left rest : List α) (hrest : rest.length = items.length * size) :
    (writeAll size items (left ++ rest) left.length).1 = left ++ items.flatten := by
  -- what is written so far grows by one item in each round
  induction items generalizing left rest with
  | nil =>
    rw [length_nil, zero_mul, length_eq_zero_iff] at hrest
    rw [hrest]
    rfl
  | cons item items ih =>
    have hitem : item.length = size := hsize item mem_cons_self
    rw [length_cons, succ_mul] at hrest
    have hnext : (rest.drop item.length).length = items.length * size := by
      rw [length_drop]
      omega
    have hstep := ih (fun x hx => hsize x (mem_cons_of_mem item hx)) (left ++ item)
      (rest.drop item.length) hnext
    rw [length_append, hitem] at hstep
    rw [writeAll, foldl_cons, copyAt_left rfl (by omega), hitem]
    rw [writeAll] at hstep
    rw [hstep, flatten_cons, append_assoc]

theorem length_flatten {size : ℕ}
    (hsize : ∀ item ∈ items, item.length = size) : items.flatten.length = items.length * size := by
  induction items with
  | nil => simp
  | cons item items ih =>
    rw [flatten_cons, length_append, length_cons, succ_mul,
      hsize item mem_cons_self, ih fun x hx => hsize x (mem_cons_of_mem item hx), add_comm]

theorem readAll_append {size : ℕ} (hsize : ∀ item ∈ items, item.length = size) (left : List α) :
    readAll size items.length (left ++ items.flatten) left.length = items := by
  induction items generalizing left with
  | nil => rfl
  | cons item items ih =>
    have hitem : item.length = size := hsize item mem_cons_self
    have hfirst : slice (left ++ (item :: items).flatten) (left.length + 0 * size)
        (left.length + 0 * size + size) = item := by
      rw [flatten_cons, ← append_assoc]
      exact slice_append (by omega) (by omega)
    have hrest := ih (fun x hx => hsize x (mem_cons_of_mem item hx)) (left ++ item)
    rw [length_append, hitem, append_assoc] at hrest
    rw [readAll, length_cons, range_succ_eq_map, map_cons, map_map]
    congr 1
    refine Eq.trans (map_congr_left fun i _ => ?_) hrest
    -- the offsets of the rest are those of the whole, one item further
    simp only [Function.comp_apply, succ_eq_add_one]
    congr 1 <;> ring

/-! ### Chunks -/

/-- `for i := 0; i < len(l); i += n`, with the chunk `l[i:min(i+n, len(l))]` of each round. -/
def chunks (n : ℕ) (l : List α) : List (List α) :=
  (List.range' 0 ((l.length + n - 1) / n) n).map fun i => slice l i (min (i + n) l.length)

theorem slice_min {l : List α} {i n : ℕ} : slice l i (min (i + n) l.length) = (l.drop i).take n := by
  rw [slice, take_eq_take_iff.mpr (show min (min (i + n) l.length) l.length =
    min (i + n) l.length by omega), drop_take]
  congr 1
  omega

theorem length_of_mem_chunks {n : ℕ} {l chunk : List α} (h : chunk ∈ chunks n l) :
    chunk.length ≤ n := by
  obtain ⟨i, -, rfl⟩ := mem_map.mp h
  rw [slice_min, length_take]
  omega

theorem flatten_chunks {n : ℕ} (hn : 0 < n) (l : List α) : (chunks n l).flatten = l := by
  have htaken : ∀ k, ((range' 0 k n).map fun i => (l.drop i).take n).flatten =
      l.take (k * n) := by
    intro k
    induction k with
    | zero => simp
    | succ k ih =>
      rw [range'_concat, map_append, flatten_append, ih, succ_mul, take_add]
      simp [mul_comm]
  have hall : l.length ≤ (l.length + n - 1) / n * n := by
    have hdiv := div_add_mod (l.length + n - 1) n
    have hmod := mod_lt (l.length + n - 1) hn
    rw [mul_comm] at hdiv
    omega
  rw [chunks, map_congr_left fun i _ => slice_min, htaken, take_of_length_le hall]

end Buffer
