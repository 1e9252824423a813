/-
Collections that are read by key.

A map can be given by the keys that were written and the value every key has; what
the order of the writes was, and how often a key was written, is then not visible in
any lookup.  The members that lists have in common are collected without repetition,
which commutes with dropping members.

* `SortsBy.eq_of_perm_iff` — when a sort by a key does not depend on the order before it.
-/
import Mathlib.Algebra.GroupWithZero.Nat
import Mathlib.Data.List.AList
import Mathlib.Data.List.Dedup
import Mathlib.Data.List.Sort

namespace Keyed

open List AList

/-- An order in which `range` visits the entries of a map. -/
structure Visit (α : Type) where
  order : List α → List α
  perm : ∀ l, (order l).Perm l

def Visit.inOrder {α : Type} : Visit α := ⟨id, List.Perm.refl⟩

variable {α κ σ V : Type}

section Maps

variable [DecidableEq κ] (m : AList fun _ : κ => V)

theorem lookup_insert_ite (k k' : κ) (v : V) :
    (m.insert k v).lookup k' = if k' = k then some v else m.lookup k' := by
  by_cases h : k' = k
  · subst h
    simp
  · rw [if_neg h, lookup_insert_ne h]

theorem lookup_insert_eq_some {m : AList fun _ : κ => V} {k k' : κ} {v w : V} :
    (m.insert k v).lookup k' = some w ↔ k' = k ∧ w = v ∨ k' ≠ k ∧ m.lookup k' = some w := by
  rw [lookup_insert_ite]
  split_ifs with h
  · simp [h, eq_comm]
  · simp [h]

theorem lookup_erase_ite (k k' : κ) :
    (m.erase k).lookup k' = if k' = k then none else m.lookup k' := by
  by_cases h : k' = k
  · subst h
    simp
  · rw [if_neg h, lookup_erase_ne h]

theorem find?_filter_ne (key : α → κ) (l : List α) (k k' : κ) :
    (l.filter (key · ≠ k)).find? (key · = k') = if k' = k then none else l.find? (key · = k') := by
  rw [find?_filter]
  by_cases h : k' = k
  · simp [h]
  · rw [if_neg h]
    congr 1
    funext x
    by_cases hx : key x = k' <;> simp [hx, h]

/-- Write the value of one key, if there is one. -/
def put (f : κ → Option V) (m : AList fun _ : κ => V) (k : κ) : AList fun _ : κ => V :=
  match f k with
  | some v => m.insert k v
  | none => m

/-- The map that has, for the keys of the list, the values of the function. -/
def ofKeys (f : κ → Option V) (keys : List κ) : AList fun _ : κ => V :=
  keys.foldl (put f) ∅

variable (f : κ → Option V)

theorem lookup_put (k k' : κ) :
    (put f m k).lookup k' = if k' = k then f k <|> m.lookup k' else m.lookup k' := by
  unfold put
  by_cases h : k' = k
  · subst h
    cases hf : f k' <;> simp
  · cases hf : f k <;> simp [h]

theorem lookup_foldl_put (keys : List κ) (m : AList fun _ : κ => V) (k : κ) :
    (keys.foldl (put f) m).lookup k = if k ∈ keys then f k <|> m.lookup k else m.lookup k := by
  induction keys generalizing m with
  | nil => simp
  | cons k' keys ih =>
    rw [foldl_cons, ih, lookup_put]
    by_cases h : k = k'
    · subst h
      cases f k <;> simp
    · simp [h]

theorem lookup_ofKeys (keys : List κ) (k : κ) :
    (ofKeys f keys).lookup k = if k ∈ keys then f k else none := by
  rw [ofKeys, lookup_foldl_put]
  simp

/-- The loop over a map that writes, for each entry, what the function makes of it. -/
def collect {W : Type} (f : κ → V → Option W) (m : AList fun _ : κ => V) : AList fun _ : κ => W :=
  m.keys.foldl (put fun k => (m.lookup k).bind (f k)) ∅

theorem lookup_collect {W : Type} (f : κ → V → Option W) (m : AList fun _ : κ => V) (k : κ) :
    (collect f m).lookup k = (m.lookup k).bind (f k) := by
  rw [collect, lookup_foldl_put]
  by_cases hk : k ∈ m.keys
  · simp [hk]
  · have hnone : m.lookup k = none := lookup_eq_none.mpr fun h => hk (mem_keys.mp h)
    simp [hk, hnone]

end Maps

/-- The entries of a map that pass a test, in their order. -/
def keep (p : κ → V → Bool) (m : AList fun _ : κ => V) : AList fun _ : κ => V where
  entries := m.entries.filter fun e => p e.1 e.2
  nodupKeys := m.nodupKeys.sublist List.filter_sublist

variable {key : α → κ} {l : List α}

section Lookups

variable [DecidableEq κ]

theorem lookup_keep (p : κ → V → Bool) (m : AList fun _ : κ => V) (k : κ) :
    (keep p m).lookup k = (m.lookup k).filter (p k) := by
  refine Option.ext fun v => ?_
  have hkeep : (keep p m).lookup k = some v ↔ Sigma.mk k v ∈ (keep p m).entries :=
    mem_lookup_iff
  have hmem : m.lookup k = some v ↔ Sigma.mk k v ∈ m.entries := mem_lookup_iff
  rw [hkeep, Option.filter_eq_some_iff, hmem]
  exact mem_filter

/-! ### Writes, one after another -/

theorem lookup_foldl_insert (key : α → κ) (val : α → V) (l : List α) (m : AList fun _ : κ => V)
    (k : κ) :
    (l.foldl (fun m a => m.insert (key a) (val a)) m).lookup k =
      ((l.reverse.find? (key · = k)).map val).or (m.lookup k) := by
  induction l generalizing m with
  | nil => rfl
  | cons a l ih =>
    rw [foldl_cons, ih, reverse_cons, find?_append]
    rcases l.reverse.find? (key · = k) with _ | b
    · by_cases h : key a = k
      · subst h
        simp
      · simp [h, lookup_insert_ne (Ne.symm h)]
    · rfl

variable {m : AList fun _ : κ => V} {val : α → V}

theorem lookup_foldl_insert_of_not_mem {k : κ} (h : k ∉ l.map key) :
    (l.foldl (fun m a => m.insert (key a) (val a)) m).lookup k = m.lookup k := by
  have hnone : l.reverse.find? (key · = k) = none := by
    rw [find?_eq_none]
    intro a ha hk
    exact h (mem_map.mpr ⟨a, mem_reverse.mp ha, of_decide_eq_true hk⟩)
  rw [lookup_foldl_insert, hnone]
  rfl

theorem exists_lookup_foldl_insert {k : κ} (h : k ∈ l.map key) : ∃ a ∈ l, key a = k ∧
      (l.foldl (fun m a => m.insert (key a) (val a)) m).lookup k = some (val a) := by
  obtain ⟨a, ha, rfl⟩ := mem_map.mp h
  rw [lookup_foldl_insert]
  rcases hfind : l.reverse.find? (key · = key a) with _ | b
  · exact absurd (find?_eq_none.mp hfind a (mem_reverse.mpr ha)) (by simp)
  · refine ⟨b, mem_reverse.mp (mem_of_find?_eq_some hfind), ?_, rfl⟩
    have hkey := find?_some hfind
    exact of_decide_eq_true hkey

/-! ### Maps of lists -/

variable (m : AList fun _ : κ => List V)

/-- The list under a key, empty if there is none. -/
def listAt (k : κ) : List V :=
  (m.lookup k).getD []

/-- Append to the list under a key. -/
def push (k : κ) (v : V) : AList fun _ : κ => List V :=
  m.insert k (listAt m k ++ [v])

def pushAll (pairs : List (κ × V)) : AList fun _ : κ => List V :=
  pairs.foldl (fun m e => push m e.1 e.2) m

/-! ### Sums over a map -/

def total (f : V → ℕ) (m : AList fun _ : κ => V) : ℕ :=
  (m.entries.map fun e => f e.2).sum

theorem total_insert (f : V → ℕ) (m : AList fun _ : κ => V) (k : κ) (v : V) :
    total f (m.insert k v) = f v + total f (m.erase k) := by
  rfl

theorem total_erase (f : V → ℕ) (m : AList fun _ : κ => V) (k : κ) :
    total f m = (m.lookup k).elim 0 f + total f (m.erase k) := by
  rcases h : m.lookup k with _ | v
  · have herase : (m.erase k).entries = m.entries :=
      kerase_of_notMem_keys (lookup_eq_none.mp h)
    rw [total, total, herase]
    exact (Nat.zero_add _).symm
  · have hk : k ∈ m.keys := lookup_isSome.mp (by rw [h]; rfl)
    obtain ⟨w, l₁, l₂, hl₁, hentries, herase⟩ := exists_of_kerase hk
    have hmem : (⟨k, w⟩ : (_ : κ) × V) ∈ m.entries := by
      rw [hentries]
      exact mem_append_right _ mem_cons_self
    have hw : m.lookup k = some w := mem_lookup_iff.mpr hmem
    obtain rfl : w = v := Option.some.inj (hw.symm.trans h)
    have herase : (m.erase k).entries = l₁ ++ l₂ := herase
    rw [total, total, hentries, herase]
    simp only [map_append, map_cons, sum_append, sum_cons, Option.elim_some]
    omega

end Lookups

section Firsts

/-- The elements whose key is not among those seen, nor that of an earlier element. -/
def firstsFrom [DecidableEq κ] (key : α → κ) : List κ → List α → List α
  | _, [] => []
  | seen, a :: l =>
    if key a ∈ seen then firstsFrom key seen l else a :: firstsFrom key (key a :: seen) l

/-- The loop that skips an element when its key was seen before. -/
def firsts [DecidableEq κ] (key : α → κ) (l : List α) : List α :=
  firstsFrom key [] l

variable {κ' : Type} [DecidableEq κ] [DecidableEq κ']

theorem firstsFrom_congr {key' : α → κ'}
    (h : ∀ a b, key a = key b ↔ key' a = key' b) (done l : List α) :
    firstsFrom key (done.map key) l = firstsFrom key' (done.map key') l := by
  induction l generalizing done with
  | nil => rfl
  | cons a l ih =>
    have hseen : key a ∈ done.map key ↔ key' a ∈ done.map key' := by
      simp only [mem_map, h]
    have ih' := ih (a :: done)
    rw [map_cons, map_cons] at ih'
    simp only [firstsFrom, hseen, ih, ih']

variable {seen : List κ}

theorem mem_firstsFrom {a : α} :
    a ∈ firstsFrom key seen l ↔ key a ∉ seen ∧ l.find? (fun b => key b = key a) = some a := by
  induction l generalizing seen with
  | nil => simp [firstsFrom]
  | cons b l ih =>
    by_cases hb : key b = key a
    · have hfind : (b :: l).find? (fun c => key c = key a) = some b :=
        find?_cons_of_pos (by simpa using hb)
      rw [hfind, firstsFrom, hb]
      split_ifs with hseen
      · simp [ih, hseen]
      · simp [ih, hseen, eq_comm]
    · have hfind : (b :: l).find? (fun c => key c = key a) = l.find? (fun c => key c = key a) :=
        find?_cons_of_neg (by simpa using hb)
      have hne : a ≠ b := fun h => hb (h ▸ rfl)
      rw [hfind, firstsFrom]
      split_ifs with hseen
      · exact ih
      · simp [ih, hne, Ne.symm hb]

theorem mem_firsts {a : α} :
    a ∈ firsts key l ↔ l.find? (fun b => key b = key a) = some a := by
  simp [firsts, mem_firstsFrom]

/-- An element that is the only one of its key in a block is kept if no element before the
block has that key. -/
theorem mem_firsts_block {l₁ l₂ l₃ : List α} {a : α} (ha : a ∈ l₂) (ha₁ : a ∉ l₁)
    (hinj : ∀ b ∈ l₂, key b = key a → b = a) :
    a ∈ firsts key (l₁ ++ l₂ ++ l₃) ↔ ∀ b ∈ l₁, key b ≠ key a := by
  rw [mem_firsts, append_assoc, find?_append]
  rcases hfind : l₁.find? (fun b => key b = key a) with _ | b
  · have hnone : ∀ b ∈ l₁, key b ≠ key a := by simpa using hfind
    refine iff_of_true ?_ hnone
    obtain ⟨b, hb⟩ : ∃ b, l₂.find? (fun b => key b = key a) = some b :=
      Option.isSome_iff_exists.mp (find?_isSome.mpr ⟨a, ha, by simp⟩)
    have hkey : key b = key a := by simpa using find?_some hb
    obtain rfl := hinj b (mem_of_find?_eq_some hb) hkey
    rw [Option.none_or, find?_append, hb, Option.some_or]
  · have hb : b ∈ l₁ := mem_of_find?_eq_some hfind
    have hkey : key b = key a := by simpa using find?_some hfind
    refine iff_of_false ?_ fun h => h b hb hkey
    rintro ⟨⟩
    exact ha₁ hb

theorem firstsFrom_of_mem_iff {seen' : List κ} (h : ∀ k, k ∈ seen ↔ k ∈ seen') (l : List α) :
    firstsFrom key seen l = firstsFrom key seen' l := by
  induction l generalizing seen seen' with
  | nil => rfl
  | cons a l ih =>
    have hcons : ∀ k, k ∈ key a :: seen ↔ k ∈ key a :: seen' := fun k => by simp [h k]
    simp only [firstsFrom, h, ih h, ih hcons]

/-- What a loop puts out that skips elements whose key was seen before. -/
def emitNew {β : Type} (key : α → κ) (emit : α → List β) (s : List κ × List β) (a : α) :
    List κ × List β :=
  if key a ∈ s.1 then s else (key a :: s.1, s.2 ++ emit a)

theorem foldl_emitNew {β : Type} (key : α → κ) (emit : α → List β) (l : List α)
    (s : List κ × List β) :
    (l.foldl (emitNew key emit) s).2 = s.2 ++ (firstsFrom key s.1 l).flatMap emit := by
  induction l generalizing s with
  | nil => simp [firstsFrom]
  | cons a l ih =>
    rw [foldl_cons, ih, emitNew, firstsFrom]
    split_ifs
    · rfl
    · rw [flatMap_cons, append_assoc]

theorem exists_mem_firstsFrom {a : α} (ha : a ∈ l)
    (hseen : key a ∉ seen) : ∃ b ∈ firstsFrom key seen l, b ∈ l ∧ key b = key a := by
  obtain ⟨b, hb⟩ : ∃ b, l.find? (fun b => key b = key a) = some b :=
    Option.isSome_iff_exists.mp (find?_isSome.mpr ⟨a, ha, by simp⟩)
  have hkey : key b = key a := by simpa using find?_some hb
  exact ⟨b, mem_firstsFrom.mpr ⟨hkey ▸ hseen, hkey ▸ hb⟩, mem_of_find?_eq_some hb, hkey⟩

/-- **A loop over the same elements in another order** puts out the same up to order, if the same
is put out for a key whichever element has it. -/
theorem firsts_flatMap_perm {β : Type} {emit : α → List β} {l l' : List α}
    (h : l.Perm l') (hemit : ∀ a ∈ l, ∀ b ∈ l, key a = key b → (emit a).Perm (emit b)) :
    ((firsts key l).flatMap emit).Perm ((firsts key l').flatMap emit) := by
  suffices hfrom : ∀ seen : List κ, ((firstsFrom key seen l).flatMap emit).Perm
      ((firstsFrom key seen l').flatMap emit) from hfrom []
  induction h with
  | nil => exact fun _ => .refl _
  | @cons a l l' _ ih =>
    intro seen
    have hrest := ih fun b hb c hc => hemit b (mem_cons_of_mem a hb) c (mem_cons_of_mem a hc)
    rw [firstsFrom, firstsFrom]
    split_ifs
    · exact hrest seen
    · exact (hrest _).append_left (emit a)
  | swap a b l =>
    intro seen
    have hswap : ∀ k, k ∈ key a :: key b :: seen ↔ k ∈ key b :: key a :: seen :=
      fun k => by simp [or_left_comm]
    by_cases hkey : key a = key b
    · -- only the first of the two is kept
      have hab := hemit a (by simp) b (by simp) hkey
      by_cases hseen : key b ∈ seen
      · simp [firstsFrom, hkey, hseen]
      · simpa [firstsFrom, hkey, hseen] using hab.symm.append_right _
    · by_cases ha : key a ∈ seen <;> by_cases hb : key b ∈ seen <;>
        simp [firstsFrom, ha, hb, hkey, Ne.symm hkey]
      rw [firstsFrom_of_mem_iff hswap, ← append_assoc, ← append_assoc]
      exact perm_append_comm.append_right _
  | trans hl hl' ih ih' =>
    intro seen
    refine (ih hemit seen).trans (ih' (fun a ha b hb => ?_) seen)
    exact hemit a (hl.mem_iff.mpr ha) b (hl.mem_iff.mpr hb)

end Firsts

section Sorting

/-- What is known of a function that sorts by a key: elements with the same key may come in any
order, but a list that is sorted already stays as it is. -/
structure SortsBy [LE κ] (key : α → κ) (sort : List α → List α) : Prop where
  perm : ∀ l, (sort l).Perm l
  sorted : ∀ l, (sort l).Pairwise fun a b => key a ≤ key b
  fixes : ∀ l, l.Pairwise (fun a b => key a ≤ key b) → sort l = l

theorem sortsBy_insertionSort [LinearOrder κ] (key : α → κ) :
    SortsBy key (insertionSort fun a b => key a ≤ key b) where
  perm := perm_insertionSort _
  sorted :=
    pairwise_insertionSort _
  fixes _ := List.Pairwise.insertionSort_eq

variable [PartialOrder κ] {key : α → κ} {sort : List α → List α}

/-- **All orders of a list sort to the same** exactly if its elements have different keys. -/
theorem SortsBy.eq_of_perm_iff (h : SortsBy key sort) (l : List α) :
    (∀ l', l'.Perm l → sort l = sort l') ↔ ∀ a ∈ l, ∀ b ∈ l, key a = key b → a = b := by
  constructor
  · intro hall
    have hsorted := h.sorted l
    have hpairs : (sort l).Pairwise fun a b => key a = key b → a = b := by
      refine pairwise_iff_forall_sublist.mpr fun {a b} hab hkey => ?_
      obtain ⟨r₁, r₂, hl, ha, hb⟩ := cons_sublist_iff.mp hab
      obtain ⟨s, t, rfl⟩ := mem_iff_append.mp ha
      obtain ⟨t', u, rfl⟩ := mem_iff_append.mp (singleton_sublist.mp hb)
      -- with the two swapped the list is still sorted, so both are what all orders sort to
      have hpull : ∀ x y : α,
          (s ++ x :: t ++ (t' ++ y :: u)).Perm (y :: x :: (s ++ t ++ (t' ++ u))) := by
        intro x y
        rw [← append_assoc]
        refine perm_middle.trans (.cons y ?_)
        simp
      have hkeys : (s ++ b :: t ++ (t' ++ a :: u)).map key = (sort l).map key := by simp [hl, hkey]
      have hfixed : sort (s ++ b :: t ++ (t' ++ a :: u)) = s ++ b :: t ++ (t' ++ a :: u) := by
        refine h.fixes _ (pairwise_map.mp ?_)
        rw [hkeys]
        exact pairwise_map.mpr hsorted
      have hperm : (s ++ b :: t ++ (t' ++ a :: u)).Perm l :=
        (hpull b a).trans ((List.Perm.swap _ _ _).trans ((hpull a b).symm.trans (hl ▸ h.perm l)))
      have heq := (hl.symm.trans (hall _ hperm)).trans hfixed
      simp only [append_assoc, append_cancel_left_eq, cons_append,
        cons.injEq] at heq
      exact heq.1
    have hsymm : Std.Symm fun a b => key a = key b → a = b :=
      ⟨fun x y hxy hkey => (hxy hkey.symm).symm⟩
    intro a ha b hb
    exact hpairs.forall_of_forall (fun _ _ _ => rfl) ((h.perm l).mem_iff.mpr ha)
      ((h.perm l).mem_iff.mpr hb)
  · intro hkeys l' hl'
    refine List.Perm.eq_of_pairwise (fun a b ha hb hab hba => ?_) (h.sorted l) (h.sorted l')
      ((h.perm l).trans (hl'.symm.trans (h.perm l').symm))
    have ha : a ∈ l := (h.perm l).mem_iff.mp ha
    have hb : b ∈ l := hl'.mem_iff.mp ((h.perm l').mem_iff.mp hb)
    exact hkeys a ha b hb (le_antisymm hab hba)

end Sorting

section Classes

variable [DecidableEq κ] {key : α → κ} {R : α → α → Prop}

/-- **Sorted lists are equal if their classes are**: where elements that are not apart have the same
key, the lists of elements of each key tell the list. -/
theorem eq_of_classes (hkey : ∀ a b, ¬ R a b → ¬ R b a → key a = key b) {l l' : List α}
    (hl : l.Pairwise fun a b => ¬ R a b) (hl' : l'.Pairwise fun a b => ¬ R a b)
    (h : ∀ k, l.filter (key · = k) = l'.filter (key · = k)) : l = l' := by
  have hmem : ∀ a, a ∈ l ↔ a ∈ l' := fun a => by
    simpa using congrArg (a ∈ ·) (h (key a))
  induction l generalizing l' with
  | nil => exact (eq_nil_iff_forall_not_mem.mpr fun a ha => by simpa using (hmem a).mpr ha).symm
  | cons a l ih =>
    rcases l' with _ | ⟨b, l'⟩
    · simpa using hmem a
    obtain ⟨ha, ht⟩ := pairwise_cons.mp hl
    obtain ⟨hb, ht'⟩ := pairwise_cons.mp hl'
    -- each of the two heads is in the other list, so neither goes before the other
    have hab : a = b ∨ ¬ R a b ∧ ¬ R b a := by
      rcases mem_cons.mp ((hmem a).mp mem_cons_self) with rfl | hmem₁
      · exact .inl rfl
      · rcases mem_cons.mp ((hmem b).mpr mem_cons_self) with rfl | hmem₂
        · exact .inl rfl
        · exact .inr ⟨ha b hmem₂, hb a hmem₁⟩
    obtain rfl : a = b := by
      rcases hab with hab | ⟨h₁, h₂⟩
      · exact hab
      · have hclass := h (key a)
        rw [filter_cons_of_pos (by simp), filter_cons_of_pos (by simp [hkey a b h₁ h₂])] at hclass
        exact (cons.inj hclass).1
    have htails : ∀ k, l.filter (key · = k) = l'.filter (key · = k) := fun k => by
      have hclass := h k
      by_cases hk : key a = k
      · simpa [hk] using hclass
      · simpa [hk] using hclass
    rw [ih ht ht' htails fun c => by simpa using congrArg (c ∈ ·) (htails (key c))]

end Classes

/-- With different keys there is nothing more to remove than the first. -/
theorem eraseP_eq_filter [DecidableEq κ] (h : (l.map key).Nodup) (k : κ) :
    l.eraseP (key · = k) = l.filter (key · ≠ k) := by
  induction l with
  | nil => rfl
  | cons a l ih =>
    rw [map_cons, nodup_cons] at h
    by_cases ha : key a = k
    · rw [eraseP_cons_of_pos (by simpa using ha), filter_cons_of_neg (by simpa using ha)]
      refine (filter_eq_self.mpr fun b hb => ?_).symm
      have hne : key b ≠ key a := fun heq => h.1 (heq ▸ mem_map_of_mem hb)
      simpa [ha] using hne
    · rw [eraseP_cons_of_neg (by simpa using ha), filter_cons_of_pos (by simpa using ha),
        ih h.2]

theorem filter_dedup [DecidableEq α] (p : α → Bool) (l : List α) :
    l.dedup.filter p = (l.filter p).dedup := by
  induction l with
  | nil => rfl
  | cons a l ih =>
    by_cases ha : a ∈ l
    · rw [dedup_cons_of_mem ha, ih]
      by_cases hp : p a
      · rw [filter_cons_of_pos hp, dedup_cons_of_mem (mem_filter.mpr ⟨ha, hp⟩)]
      · rw [filter_cons_of_neg hp]
    · rw [dedup_cons_of_notMem ha]
      by_cases hp : p a
      · have ha' : a ∉ l.filter p := fun h => ha (mem_of_mem_filter h)
        rw [filter_cons_of_pos hp, filter_cons_of_pos hp,
          dedup_cons_of_notMem ha', ih]
      · rw [filter_cons_of_neg hp, filter_cons_of_neg hp, ih]

theorem foldl_prod {τ : Type} (f : σ → α → σ) (g : τ → α → τ) (l : List α) (s : σ × τ) :
    l.foldl (fun s a => (f s.1 a, g s.2 a)) s = (l.foldl f s.1, l.foldl g s.2) := by
  induction l generalizing s with
  | nil => rfl
  | cons a l ih => exact ih _

/-- A loop over the elements that pass a test has the outcome of the whole loop, if the
others leave the state alone. -/
theorem foldl_filter_of_fixed (p : α → Bool) {f : σ → α → σ}
    (h : ∀ a ∈ l, p a = false → ∀ s, f s a = s) (s : σ) : (l.filter p).foldl f s = l.foldl f s := by
  induction l generalizing s with
  | nil => rfl
  | cons a l ih =>
    have ih := ih fun b hb => h b (mem_cons_of_mem a hb)
    by_cases hp : p a
    · rw [filter_cons_of_pos hp, foldl_cons, foldl_cons, ih]
    · rw [filter_cons_of_neg hp, foldl_cons, ih,
        h a mem_cons_self (by simpa using hp)]

/-- After a change of one element the property is a question about that element only. -/
theorem forall_mem_modify {P : α → Prop} (hl : ∀ a ∈ l, P a) (k : ℕ) (f : α → α) :
    (∀ a ∈ l.modify k f, P a) ↔ ∀ a, l[k]? = some a → P (f a) := by
  induction l generalizing k with
  | nil => simp
  | cons b l ih =>
    obtain ⟨hb, hl⟩ := forall_mem_cons.mp hl
    rcases k with _ | k
    · simpa using fun _ => hl
    · rw [modify_succ_cons, forall_mem_cons, ih hl]
      exact and_iff_right hb

end Keyed
