/-
Tables as lists of rows.

A lookup whose selection fits at most one row returns that row whatever the order
of the table; a replacement of that row leaves the others alone.
-/
import Mathlib.Data.List.Nodup

namespace Rows

open List

variable {α κ : Type} {l : List α} {a b : α}

/-- The selected rows of the table become `row`, the others stay. -/
def replace (sel : α → Bool) (row : α → α) (l : List α) : List α :=
  l.map fun a => if sel a then row a else a

/-- At most one row of the table is selected. -/
def Unique (sel : α → Bool) (l : List α) : Prop :=
  ∀ a ∈ l, ∀ b ∈ l, sel a = true → sel b = true → a = b

variable {sel : α → Bool}

theorem unique_of_nodup {f : α → κ} (h : (l.map f).Nodup) (k : κ)
    (hsel : ∀ a, sel a = true → f a = k) : Unique sel l :=
  fun a ha b hb hsa hsb => inj_on_of_nodup_map h ha hb ((hsel a hsa).trans (hsel b hsb).symm)

theorem find?_eq_some_of_unique (h : Unique sel l) :
    l.find? sel = some a ↔ a ∈ l ∧ sel a = true := by
  constructor
  · intro hf
    exact ⟨mem_of_find?_eq_some hf, find?_some hf⟩
  · rintro ⟨ha, hsel⟩
    rcases hf : l.find? sel with _ | b
    · exact absurd hsel (by simpa using find?_eq_none.mp hf a ha)
    · rw [h b (mem_of_find?_eq_some hf) a ha (find?_some hf) hsel]

theorem map_replace {f : α → κ} {row : α → α}
    (h : ∀ a ∈ l, sel a = true → f (row a) = f a) : (replace sel row l).map f = l.map f := by
  rw [replace, map_map]
  refine map_congr_left fun a ha => ?_
  simp only [Function.comp_apply]
  split_ifs with hsel
  · exact h a ha hsel
  · rfl

theorem mem_replace (h : Unique sel l) (ha : a ∈ l) (hsel : sel a = true)
    {b r : α} : r ∈ replace sel (fun _ => b) l ↔ r = b ∨ (r ∈ l ∧ r ≠ a) := by
  rw [replace, mem_map]
  constructor
  · rintro ⟨x, hx, rfl⟩
    split_ifs with hx'
    · exact .inl rfl
    · refine .inr ⟨hx, ?_⟩
      rintro rfl
      exact hx' hsel
  · rintro (rfl | ⟨hr, hne⟩)
    · exact ⟨a, ha, by simp [hsel]⟩
    · refine ⟨r, hr, if_neg ?_⟩
      intro hr'
      exact hne (h r hr a ha hr' hsel)

end Rows
