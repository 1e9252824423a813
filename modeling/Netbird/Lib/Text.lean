/-
The part of Go's `strings` and `encoding/hex` packages that the development
uses, on Lean strings.

`strings.ToLower` maps every rune with `unicode.ToLower`.  The Unicode tables
are not reproduced: `CaseMap` is any rune map that agrees with them on ASCII,
and the results hold for every such map.  `CaseMap.ascii` is the one used to
evaluate the definitions.

Main facts: `cut_eq_some` (what `SplitN(s, sep, 2)` returns) and
`utf8ByteSize_hexEncode` (hexadecimal text has two bytes per byte).
-/
import Mathlib.Data.List.AList
import Mathlib.Data.List.DropRight
import Mathlib.Tactic.IntervalCases

/-- A Go `map[string]V`: no key occurs twice. -/
abbrev StringMap (V : Type) := AList fun _ : String => V

/-- A lower-case mapping of runes, fixed on ASCII. -/
structure CaseMap where
  lower : Char → Char
  lower_ascii : ∀ c : Char, c.toNat < 128 → lower c = c.toLower

namespace CaseMap

/-- The map that changes ASCII letters only. -/
def ascii : CaseMap where
  lower := Char.toLower
  lower_ascii := fun _ _ => rfl

def toLower (cm : CaseMap) (s : String) : String :=
  String.ofList (s.toList.map cm.lower)

@[simp] theorem toList_toLower (cm : CaseMap) (s : String) :
    (cm.toLower s).toList = s.toList.map cm.lower :=
  String.toList_ofList

end CaseMap

/-- A lower-case mapping with the folding that `strings.EqualFold` compares runes by. -/
structure FoldMap extends CaseMap where
  fold : Char → Char
  fold_ascii : ∀ c : Char, c.toNat < 128 → fold c = c.toLower

namespace FoldMap

/-- The map that changes ASCII letters only. -/
def ascii : FoldMap where
  toCaseMap := .ascii
  fold := Char.toLower
  fold_ascii := fun _ _ => rfl

/-- `strings.ToLower` on runes. -/
def lowered (fm : FoldMap) (cs : List Char) : List Char := cs.map fm.lower

/-- What two texts have in common if `strings.EqualFold` takes them for equal. -/
def folded (fm : FoldMap) (cs : List Char) : List Char := cs.map fm.fold

/-- `strings.EqualFold` takes every rune of the text for its lower case.  It does not for U+0130,
whose lower case is the letter i. -/
def Consistent (fm : FoldMap) (cs : List Char) : Prop := ∀ c ∈ cs, fm.fold (fm.lower c) = fm.fold c

instance (fm : FoldMap) (cs : List Char) : Decidable (fm.Consistent cs) :=
  List.decidableBAll _ cs

theorem Consistent.folded_lowered {fm : FoldMap} {cs : List Char} (h : fm.Consistent cs) :
    fm.folded (fm.lowered cs) = fm.folded cs := by
  rw [folded, lowered, List.map_map]
  exact List.map_congr_left h

end FoldMap

namespace Text

/-- `strings.TrimSuffix(s, string(c))` for a one-character suffix. -/
def trimSuffixChar (s : String) (c : Char) : String :=
  if s.toList.getLast? = some c then String.ofList s.toList.dropLast else s

/-- `strings.Trim(s, string(c))` on the runes of `s`. -/
def trimChar (c : Char) (cs : List Char) : List Char :=
  (cs.dropWhile (· == c)).rdropWhile (· == c)

def split (s : String) (sep : Char) : List String :=
  (s.toList.splitOn sep).map String.ofList

/-- `strings.SplitN(s, string(sep), 2)` when `sep` occurs in `s`; `none` when it
does not, the case in which Go returns a single part. -/
def cut (s : String) (sep : Char) : Option (String × String) :=
  match s.toList.dropWhile (· != sep) with
  | [] => none
  | _ :: rest => some (String.ofList (s.toList.takeWhile (· != sep)), String.ofList rest)

/-- The hexadecimal digit of a number below sixteen. -/
def hexDigit (n : ℕ) : Char :=
  if n < 10 then Char.ofNat ('0'.toNat + n) else Char.ofNat ('a'.toNat + (n - 10))

/-- `hex.EncodeToString`, and `fmt.Sprintf("%x", _)` on a byte array. -/
def hexEncode (data : List UInt8) : String :=
  String.ofList (data.flatMap fun b => [hexDigit (b.toNat / 16), hexDigit (b.toNat % 16)])

/-! ### Splitting -/

/-- What `cut` returns: the text before the first separator, free of it, and the
rest. -/
theorem cut_eq_some {s a b : String} {sep : Char} (h : cut s sep = some (a, b)) :
    s.toList = a.toList ++ sep :: b.toList ∧ sep ∉ a.toList := by
  rw [cut] at h
  split at h
  · cases h
  · rename_i x rest hx
    obtain ⟨rfl, rfl⟩ := h
    have hsep : x = sep := by
      have hhead := List.head?_dropWhile_not (fun c => c != sep) s.toList
      rw [hx] at hhead
      simpa using hhead
    subst hsep
    rw [String.toList_ofList, String.toList_ofList]
    constructor
    · rw [← hx, List.takeWhile_append_dropWhile]
    · intro hmem
      have := List.mem_takeWhile_imp hmem
      simp at this

/-- A text has a second part exactly if the separator occurs in it. -/
theorem two_le_length_splitOn {cs : List Char} {sep : Char} :
    2 ≤ (cs.splitOn sep).length ↔ sep ∈ cs := by
  constructor
  · intro h
    by_contra hsep
    simp [List.splitOn_eq_singleton hsep] at h
  · intro h
    obtain ⟨as, bs, rfl⟩ := List.append_of_mem h
    rw [List.splitOn, List.splitOnP_append_cons as bs (by simp), List.length_append]
    have has := List.length_pos_iff.mpr (List.splitOnP_ne_nil (· == sep) as)
    have hbs := List.length_pos_iff.mpr (List.splitOnP_ne_nil (· == sep) bs)
    omega

/-! ### Sizes -/

theorem utf8ByteSize_ofList (cs : List Char) :
    (String.ofList cs).utf8ByteSize = (cs.map Char.utf8Size).sum := by
  induction cs with
  | nil => rfl
  | cons c cs ih =>
    rw [List.map_cons, List.sum_cons, ← ih, String.ofList_cons, String.utf8ByteSize_append,
      String.utf8ByteSize_singleton]

/-- Over one-byte runes the number of bytes is the number of runes. -/
theorem utf8ByteSize_eq_length {cs : List Char} (h : ∀ c ∈ cs, c.utf8Size = 1) :
    (String.ofList cs).utf8ByteSize = cs.length := by
  rw [utf8ByteSize_ofList, List.map_congr_left h]
  simp

theorem hexDigit_utf8Size {n : ℕ} (h : n < 16) : (hexDigit n).utf8Size = 1 := by
  interval_cases n <;> rfl

theorem length_hexEncode (data : List UInt8) :
    (hexEncode data).toList.length = 2 * data.length := by
  rw [hexEncode]
  simp [Nat.mul_comm]

theorem hexDigit_injective {m n : ℕ} (hm : m < 16) (hn : n < 16) (h : hexDigit m = hexDigit n) :
    m = n := by
  interval_cases m <;> interval_cases n <;> first | rfl | exact absurd h (by decide)

theorem hexEncode_injective : Function.Injective hexEncode := by
  intro a b h
  have hlist := congrArg String.toList h
  rw [hexEncode, hexEncode, String.toList_ofList, String.toList_ofList] at hlist
  clear h
  induction a generalizing b with
  | nil =>
    rcases b with _ | ⟨y, b⟩
    · rfl
    · simp at hlist
  | cons x a ih =>
    rcases b with _ | ⟨y, b⟩
    · simp at hlist
    · simp only [List.flatMap_cons, List.cons_append, List.nil_append, List.cons.injEq] at hlist
      obtain ⟨hhigh, hlow, hrest⟩ := hlist
      have hx : x.toNat < 256 := x.toNat_lt
      have hy : y.toNat < 256 := y.toNat_lt
      have hhigh' := hexDigit_injective (by omega) (by omega) hhigh
      have hlow' := hexDigit_injective (by omega) (by omega) hlow
      have hxy : x = y := UInt8.toNat_inj.mp (by omega)
      rw [hxy, ih hrest]

theorem utf8ByteSize_hexEncode (data : List UInt8) :
    (hexEncode data).utf8ByteSize = 2 * data.length := by
  have hone : ∀ c ∈ data.flatMap fun b => [hexDigit (b.toNat / 16), hexDigit (b.toNat % 16)],
      c.utf8Size = 1 := by
    intro c hc
    obtain ⟨b, -, hb⟩ := List.mem_flatMap.mp hc
    have hlt : b.toNat < 256 := b.toNat_lt
    rcases List.mem_pair.mp hb with rfl | rfl <;> exact hexDigit_utf8Size (by omega)
  rw [hexEncode, utf8ByteSize_eq_length hone]
  simp [Nat.mul_comm]

end Text
