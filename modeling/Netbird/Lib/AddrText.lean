/-
Reading the text of an address back.

The texts of `Netbird.Lib.Addr` are written with a separator between parts that do not
contain it, so the parts can be read off the text.  An IPv6 address is shortened: the first
longest run of zero words is left out and shows up as an empty part.  The words before the
empty part and the words after it determine the address, since it has eight words.

* `unmap_injective` — an address of sixteen bytes can be read off its short form.
-/
import Mathlib.Data.List.TakeWhile
import Mathlib.Tactic.IntervalCases
import Netbird.Lib.Addr

namespace Addr

open List Nat

/-! ### Numbers -/

/-- The number that a hexadecimal digit stands for. -/
def hexVal (c : Char) : ℕ :=
  if c.isDigit then c.toNat - '0'.toNat else c.toNat - 'a'.toNat + 10

theorem hexVal_digitChar : ∀ n < 16, hexVal (Nat.digitChar n) = n := by decide

theorem foldl_hexVal_toDigits (n : ℕ) :
    (Nat.toDigits 16 n).foldl (fun m c => 16 * m + hexVal c) 0 = n := by
  induction n using Nat.strong_induction_on with
  | _ n ih =>
    by_cases hn : n < 16
    · rw [toDigits_of_lt_base hn]
      simpa using hexVal_digitChar n hn
    · have hlow : n % 16 < 16 := mod_lt n (by decide)
      have hsplit : toDigits 16 n = toDigits 16 (n / 16) ++ toDigits 16 (n % 16) := by
        rw [toDigits_append_toDigits (by decide) (by omega) hlow, div_add_mod]
      rw [hsplit, foldl_append, ih (n / 16) (by omega), toDigits_of_lt_base hlow]
      simp only [foldl_cons, foldl_nil, hexVal_digitChar _ hlow]
      omega

theorem hex_injective : Function.Injective hex := by
  intro m n h
  have hdigits : toDigits 16 m = toDigits 16 n := by
    simpa [hex] using congrArg String.toList h
  rw [← foldl_hexVal_toDigits m, hdigits, foldl_hexVal_toDigits]

theorem hex_ne_empty (n : ℕ) : (hex n).toList ≠ [] := by
  rw [hex, String.toList_ofList]
  exact toDigits_ne_nil

theorem toString_injective {m n : ℕ} (h : (toString m).toList = (toString n).toList) : m = n := by
  have hdigits : toDigits 10 m = toDigits 10 n := by simpa using h
  rw [← ofDigitChars_ten_toDigits (n := m), hdigits, ofDigitChars_ten_toDigits]

/-! ### Dotted addresses -/

theorem dot_notMem (n : ℕ) : '.' ∉ (toString n).toList := by
  intro hdot
  have := mem_repr hdot
  revert this
  decide

theorem splitOn_fields {α : Type} {f : α → String} {l : List α} {sep : String} {d : Char}
    (hsep : sep.toList = [d]) (hf : ∀ x, d ∉ (f x).toList) (hl : l ≠ []) :
    (sep.intercalate (l.map f)).toList.splitOn d = l.map fun x => (f x).toList := by
  rw [String.toList_intercalate, map_map, hsep]
  refine splitOn_intercalate d ?_ (by simpa using hl)
  intro cs hcs
  obtain ⟨x, -, rfl⟩ := mem_map.mp hcs
  exact hf x

theorem dotted_fields (b : List UInt8) (hb : b ≠ []) :
    (dotted b).toList.splitOn '.' = b.map fun x => (toString x.toNat).toList :=
  splitOn_fields rfl (fun _ => dot_notMem _) hb

variable {b c : List UInt8}

theorem dotted_injective (hb : b ≠ []) (hc : c ≠ []) (h : dotted b = dotted c) : b = c := by
  have hfields := dotted_fields b hb
  rw [h, dotted_fields c hc] at hfields
  refine map_injective_iff.mpr ?_ hfields.symm
  intro x y hxy
  exact UInt8.toNat_inj.mp (toString_injective hxy)

/-! ### Shortened addresses -/

theorem words_injective (heven : 2 ∣ b.length) (hlen : b.length = c.length)
    (h : words b = words c) : b = c := by
  induction b using words.induct generalizing c with
  | case1 hi lo rest ih =>
    match c, hlen with
    | hi' :: lo' :: rest', hlen =>
      simp only [words, cons.injEq] at h
      have hlo := lo.toNat_lt
      have hlo' := lo'.toNat_lt
      have hhi : hi = hi' := UInt8.toNat_inj.mp (by omega)
      have hlow : lo = lo' := UInt8.toNat_inj.mp (by omega)
      simp only [length_cons] at heven hlen
      rw [hhi, hlow, ih (by omega) (by omega) h.2]
  | case2 b hb =>
    match b, hb with
    | [], _ => exact (length_eq_zero_iff.mp hlen.symm).symm
    | [_], _ => simp at heven
    | hi :: lo :: rest, hb => exact absurd rfl (hb hi lo rest)

theorem length_words (b : List UInt8) : (words b).length = b.length / 2 := by
  induction b using words.induct with
  | case1 hi lo rest ih =>
    simp only [words, length_cons, ih]
    omega
  | case2 b hb =>
    match b, hb with
    | [], _ => rfl
    | [_], _ => simp [words]
    | hi :: lo :: rest, hb => exact absurd rfl (hb hi lo rest)

variable (ws : List ℕ)

/-- The words that are left out are zero. -/
theorem zeroRun_spec : (zeroRun ws).1 + (zeroRun ws).2 ≤ ws.length ∧
      ws = ws.take (zeroRun ws).1 ++ replicate (zeroRun ws).2 0 ++
        ws.drop ((zeroRun ws).1 + (zeroRun ws).2) := by
  refine foldlRecOn (motive := fun r : ℕ × ℕ => r.1 + r.2 ≤ ws.length ∧
    ws = ws.take r.1 ++ replicate r.2 0 ++ ws.drop (r.1 + r.2)) _ _ (by simp) ?_
  rintro ⟨start, n⟩ hbest i hi
  dsimp only
  split_ifs
  · -- the run at `i` is what `takeWhile` splits off the words from there on
    obtain ⟨rest, hrest⟩ := takeWhile_prefix (l := ws.drop i) (· == 0)
    have hzero : ∀ x ∈ (ws.drop i).takeWhile (· == 0), x = 0 := fun x hx => by
      simpa using mem_takeWhile_imp hx
    generalize (ws.drop i).takeWhile (· == 0) = run at hrest hzero
    have hlen := congrArg length hrest
    have hi' := mem_range.mp hi
    rw [length_append, length_drop] at hlen
    refine ⟨by omega, ?_⟩
    rw [← eq_replicate_of_mem hzero, append_assoc, ← drop_drop, ← hrest,
      drop_left, hrest, take_append_drop]
  · exact hbest

/-- The parts of a shortened text: the words before the run of zeros, an empty part, and the
words after it.  Where there are no words the text begins or ends with a separator. -/
def fieldsV6 (before after : List (List Char)) : List (List Char) :=
  (if before = [] then [[]] else before) ++ [] :: (if after = [] then [[]] else after)

theorem reverse_fieldsV6 (before after : List (List Char)) :
    (fieldsV6 before after).reverse = fieldsV6 after.reverse before.reverse := by
  by_cases hbefore : before = [] <;>
    by_cases hafter : after = [] <;> simp [fieldsV6, hbefore, hafter]

theorem takeWhile_fieldsV6 {before : List (List Char)} (after : List (List Char))
    (h : [] ∉ before) : (fieldsV6 before after).takeWhile (· ≠ []) = before := by
  by_cases hbefore : before = []
  · simp [fieldsV6, hbefore]
  · have hall : ∀ l ∈ before, decide (l ≠ []) = true := by
      intro l hl
      exact decide_eq_true fun heq => h (heq ▸ hl)
    rw [fieldsV6, if_neg hbefore, takeWhile_append_of_pos hall]
    simp

/-- The words before and after the run can be read off the parts. -/
theorem fieldsV6_injective {before after before' after' : List (List Char)}
    (hbefore : [] ∉ before) (hafter : [] ∉ after) (hbefore' : [] ∉ before') (hafter' : [] ∉ after')
    (h : fieldsV6 before after = fieldsV6 before' after') : before = before' ∧ after = after' := by
  refine ⟨?_, reverse_injective ?_⟩
  · rw [← takeWhile_fieldsV6 after hbefore, h, takeWhile_fieldsV6 after' hbefore']
  · have hrev := congrArg reverse h
    rw [reverse_fieldsV6, reverse_fieldsV6] at hrev
    have hread := takeWhile_fieldsV6 before.reverse (mt mem_reverse.mp hafter)
    rw [hrev, takeWhile_fieldsV6 before'.reverse (mt mem_reverse.mp hafter')] at hread
    exact hread.symm

def hexes (ws : List ℕ) : List (List Char) := ws.map fun w => (hex w).toList

theorem hexes_injective {ws ws' : List ℕ} (h : hexes ws = hexes ws') : ws = ws' :=
  map_injective_iff.mpr (fun _ _ h => hex_injective (String.toList_inj.mp h)) h

theorem nil_not_mem_hexes : [] ∉ hexes ws := by
  intro h
  obtain ⟨w, -, hw⟩ := mem_map.mp h
  exact hex_ne_empty w hw

theorem splitOn_join : (":".intercalate (ws.map hex)).toList.splitOn ':' =
      if hexes ws = [] then [[]] else hexes ws := by
  rcases ws with _ | ⟨w, ws⟩
  · rfl
  · refine splitOn_fields rfl (fun w hcolon => ?_) (cons_ne_nil _ _)
    have := mem_hex hcolon
    revert this
    decide

theorem splitOn_textV6 (b : List UInt8) (hb : words b ≠ []) : (textV6 b).toList.splitOn ':' =
      if (zeroRun (words b)).2 = 0 then hexes (words b)
      else fieldsV6 (hexes ((words b).take (zeroRun (words b)).1))
        (hexes ((words b).drop ((zeroRun (words b)).1 + (zeroRun (words b)).2))) := by
  rw [textV6]
  dsimp only
  split_ifs with hrun
  · rw [splitOn_join, if_neg (by simpa [hexes] using hb)]
  · rw [fieldsV6, ← splitOn_join, ← splitOn_join, String.toList_append, String.toList_append,
      append_assoc]
    have hsep : "::".toList = [':', ':'] := rfl
    rw [hsep, splitOn, cons_append, splitOnP_append_cons _ _ (by simp)]
    simp [splitOn, splitOnP_cons_eq_if_modifyHead]

theorem textV6_injective (hb : b.length = 16) (hc : c.length = 16)
    (h : textV6 b = textV6 c) : b = c := by
  have hlenb : (words b).length = 8 := by rw [length_words, hb]
  have hlenc : (words c).length = 8 := by rw [length_words, hc]
  refine words_injective (by omega) (by omega) ?_
  have hfields := splitOn_textV6 b (by intro h; simp [h] at hlenb)
  rw [h, splitOn_textV6 c (by intro h; simp [h] at hlenc)] at hfields
  have hmem : ∀ x y, [] ∈ fieldsV6 x y := by simp [fieldsV6]
  split_ifs at hfields with hrunc hrunb hrunb
  · exact (hexes_injective hfields).symm
  · exact absurd (hfields ▸ hmem _ _) (nil_not_mem_hexes _)
  · exact absurd (hfields ▸ hmem _ _) (nil_not_mem_hexes _)
  · obtain ⟨hbefore, hafter⟩ := fieldsV6_injective (nil_not_mem_hexes _) (nil_not_mem_hexes _)
      (nil_not_mem_hexes _) (nil_not_mem_hexes _) hfields
    obtain ⟨hleb, hwsb⟩ := zeroRun_spec (words b)
    obtain ⟨hlec, hwsc⟩ := zeroRun_spec (words c)
    have hstart := congrArg length (hexes_injective hbefore)
    have hend := congrArg length (hexes_injective hafter)
    simp only [length_take, length_drop] at hstart hend
    have hn : (zeroRun (words b)).2 = (zeroRun (words c)).2 := by omega
    rw [hwsb, hwsc, hexes_injective hbefore, hexes_injective hafter, hn]

/-! ### Addresses of sixteen bytes -/

theorem ipText_of_length {b : List UInt8} (hb : b.length = 16) :
    ipText b = if isV4Mapped b then dotted (b.drop 12) else textV6 b := by
  rw [ipText, to4, if_neg (by omega), if_neg (by omega)]
  split_ifs
  · rfl
  · rfl

/-- The characters that addresses are written with. -/
def chars : List Char := "0123456789abcdef:.".toList

theorem mem_chars_of_mem_ipText {b : List UInt8} (hb : b.length = 16) {c : Char}
    (h : c ∈ (ipText b).toList) : c ∈ chars := by
  have hhex : c ∈ "0123456789abcdef".toList → c ∈ chars := fun h => mem_append_left [':', '.'] h
  rw [ipText_of_length hb] at h
  split_ifs at h
  · rcases (mem_of_mem_join rfl h).imp_right fun ⟨_, h⟩ => mem_repr h with rfl | h
    · decide
    · exact hhex h
  · rcases mem_chars_of_mem_textV6 h with rfl | h
    · decide
    · exact hhex h

theorem eq_of_isV4Mapped (hb : isV4Mapped b = true) (hc : isV4Mapped c = true)
    (h : b.drop 12 = c.drop 12) : b = c := by
  simp only [isV4Mapped, Bool.and_eq_true, beq_iff_eq] at hb hc
  rw [← take_append_drop 12 b, ← take_append_drop 12 c, hb.2, hc.2, h]

/-- A dotted text has a dot, the other texts have none. -/
theorem dotted_ne_textV6 (hb : b.length = 4) : dotted b ≠ textV6 c := by
  intro h
  have hdot : '.' ∈ (dotted b).toList := by
    match b, hb with
    | [_, _, _, _], _ => simp [dotted]
  rw [h] at hdot
  rcases mem_chars_of_mem_textV6 hdot with hdot | hdot <;> revert hdot <;> decide

/-- **Different addresses of sixteen bytes have different texts.** -/
theorem ipText_injective (hb : b.length = 16) (hc : c.length = 16)
    (h : ipText b = ipText c) : b = c := by
  have hlen : ∀ d : List UInt8, d.length = 16 → (d.drop 12).length = 4 := fun d hd => by simp [hd]
  have hne : ∀ d : List UInt8, d.length = 16 → d.drop 12 ≠ [] := fun d hd h => by
    have := hlen d hd
    simp [h] at this
  rw [ipText_of_length hb, ipText_of_length hc] at h
  split_ifs at h with hmb hmc hmc
  · exact eq_of_isV4Mapped hmb hmc (dotted_injective (hne b hb) (hne c hc) h)
  · exact absurd h (dotted_ne_textV6 (hlen b hb))
  · exact absurd h.symm (dotted_ne_textV6 (hlen c hc))
  · exact textV6_injective hb hc h

theorem unmap_injective (hb : b.length = 16) (hc : c.length = 16)
    (h : unmap b = unmap c) : b = c := by
  have hlen := congrArg length h
  unfold unmap at h hlen
  split_ifs at h hlen with hmb hmc hmc
  · exact eq_of_isV4Mapped hmb hmc h
  · simp [hb, hc] at hlen
  · simp [hb, hc] at hlen
  · exact h

end Addr
