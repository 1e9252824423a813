/-
Object identifiers and the octets that encode them.

DER writes an identifier as one base-128 number for its first two arcs, forty
times the first plus the second, and one number for every further arc; every
octet but the last of a number has its high bit set.  `decodeOID` reads the
further arcs by its loop but takes the first octet alone for the first two arcs.

* `oidComponents_flatMap` — the loop inverts the encoding of the further arcs;
* `length_components` — a first number of several octets becomes one arc too many;
* `decodeOID_inverts_iff` — so the text is right if and only if the second arc is
  below 48 whenever the first is 2.
-/
import Netbird.Lib.AddrText
import Netbird.Mtls.Certificate

namespace Mtls

open Checked List

/-! ### The encoding -/

/-- The leading octets of a base-128 number, all with the high bit. -/
def leading (n : ℕ) : List UInt8 :=
  if n = 0 then [] else leading (n / 128) ++ [UInt8.ofNat (n % 128 + 128)]

def subidentifier (n : ℕ) : List UInt8 :=
  leading (n / 128) ++ [UInt8.ofNat (n % 128)]

/-- The content octets of an object identifier. -/
def derOID (first second : ℕ) (arcs : List ℕ) : List UInt8 :=
  subidentifier (40 * first + second) ++ arcs.flatMap subidentifier

/-- A SEQUENCE of short form that starts with an object identifier. -/
def templateExtension (oid tail : List UInt8) : List UInt8 :=
  0x30 :: UInt8.ofNat (2 + oid.length + tail.length) :: 0x06 :: UInt8.ofNat oid.length ::
    (oid ++ tail)

/-! ### The loop -/

variable {n : ℕ} {rest : List UInt8}

/-- **One octet** appends its seven low bits, modulo the width of a Go `int`; without the high
bit it ends the number. -/
theorem oidComponents_cons {k : ℕ} (hk : k < 256) (m : ℕ) :
    oidComponents (UInt8.ofNat k :: rest) (BitVec.ofNat 64 m) =
      if k < 128 then (BitVec.ofNat 64 (128 * m + k % 128)).toInt :: oidComponents rest 0
      else oidComponents rest (BitVec.ofNat 64 (128 * m + k % 128)) := by
  have hoctet : ∀ k < 256, (UInt8.ofNat k &&& 0x7f).toNat = k % 128 ∧
      (UInt8.ofNat k &&& 0x80 = 0 ↔ k < 128) := by decide +kernel
  obtain ⟨hlow, hhigh⟩ := hoctet k hk
  have hshift : BitVec.ofNat 64 m <<< 7 = BitVec.ofNat 64 (2 ^ 7 * m) := by
    rw [BitVec.shiftLeft_eq_mul_twoPow, BitVec.ofNat_mul, BitVec.mul_comm]
    rfl
  have hor := Nat.two_pow_add_eq_or_of_lt (Nat.mod_lt k (show 0 < 2 ^ 7 by decide)) m
  rw [oidComponents, hlow, hshift, ← BitVec.ofNat_or]
  simp only [hhigh]
  rw [← hor]

theorem oidComponents_leading (n : ℕ) (rest : List UInt8) :
    oidComponents (leading n ++ rest) 0 = oidComponents rest (BitVec.ofNat 64 n) := by
  induction n using Nat.strong_induction_on generalizing rest with
  | _ n ih =>
    rw [leading]
    split_ifs with hn
    · rw [hn]
      rfl
    · rw [append_assoc, ih _ (by omega), singleton_append, oidComponents_cons (by omega),
        if_neg (by omega)]
      congr 2
      omega

theorem oidComponents_subidentifier (n : ℕ) (rest : List UInt8) :
    oidComponents (subidentifier n ++ rest) 0 =
      (BitVec.ofNat 64 n).toInt :: oidComponents rest 0 := by
  rw [subidentifier, append_assoc, oidComponents_leading, singleton_append,
    oidComponents_cons (by omega), if_pos (by omega), Nat.mod_mod, Nat.div_add_mod]

/-- **The loop inverts the encoding** of the arcs that fit a Go `int`. -/
theorem oidComponents_flatMap {arcs : List ℕ} (harcs : ∀ arc ∈ arcs, arc < 2 ^ 63) :
    oidComponents (arcs.flatMap subidentifier) 0 = arcs.map (↑) := by
  induction arcs with
  | nil => rfl
  | cons arc arcs ih =>
    obtain ⟨harc, harcs⟩ := forall_mem_cons.mp harcs
    rw [flatMap_cons, oidComponents_subidentifier, ih harcs, map_cons, BitVec.toInt_ofNat',
      Int.bmod_eq_of_le (by omega) (by omega)]

/-! ### The first two arcs -/

/-- A number above 127 starts with an octet that has the high bit. -/
theorem leading_eq_cons (hn : n ≠ 0) :
    ∃ k bs, 128 ≤ k ∧ k < 256 ∧ leading n = UInt8.ofNat k :: bs := by
  induction n using Nat.strong_induction_on with
  | _ n ih =>
    rw [leading, if_neg hn]
    rcases eq_or_ne (n / 128) 0 with hdiv | hdiv
    · rw [hdiv, leading]
      exact ⟨n % 128 + 128, [], by omega, by omega, rfl⟩
    · obtain ⟨k, bs, hk, hk', hbs⟩ := ih _ (by omega) hdiv
      exact ⟨k, _, hk, hk', by rw [hbs, cons_append]⟩

/-- How many numbers the loop reads does not depend on what it has read before. -/
theorem length_oidComponents (data : List UInt8) (v w : BitVec 64) :
    (oidComponents data v).length = (oidComponents data w).length := by
  induction data generalizing v w with
  | nil => rfl
  | cons b data ih =>
    rw [oidComponents, oidComponents]
    split_ifs
    · rw [length_cons, length_cons]
    · exact ih _ _

theorem dot_notMem_int (n : ℤ) : '.' ∉ (toString n).toList := by
  rcases n with n | n
  · exact Addr.dot_notMem n
  · intro hdot
    have htext : toString (Int.negSucc n) = "-" ++ toString (n + 1) := rfl
    rw [htext, String.toList_append, mem_append] at hdot
    exact hdot.elim (by decide) (Addr.dot_notMem _)

variable {first second : ℕ} {arcs : List ℕ}

/-- A first number of several octets is read as one arc too many. -/
theorem decodeOID_ne (harcs : ∀ arc ∈ arcs, arc < 2 ^ 63) (hn : 128 ≤ 40 * first + second) :
    decodeOID (derOID first second arcs) ≠ ObjectIdentifier.toDotted (first :: second :: arcs) := by
  obtain ⟨k, bs, hk, hk', hbs⟩ := leading_eq_cons (show (40 * first + second) / 128 ≠ 0 by omega)
  obtain ⟨rest, hder⟩ : ∃ rest, derOID first second arcs = UInt8.ofNat k :: rest := by
    rw [derOID, subidentifier, hbs]
    exact ⟨_, rfl⟩
  have hall : (oidComponents (derOID first second arcs) 0).length = arcs.length + 1 := by
    rw [derOID, oidComponents_subidentifier, oidComponents_flatMap harcs, length_cons, length_map]
  have hgoes := (@oidComponents_cons rest _ hk' 0).trans (if_neg (by omega))
  have hlength := (length_oidComponents rest 0 _).trans ((congrArg length hgoes).symm.trans
    (hder ▸ hall))
  intro h
  have hfields := congrArg (fun s => (s.toList.splitOn '.').length) h
  rw [hder, decodeOID, ObjectIdentifier.toDotted] at hfields
  rw [Addr.splitOn_fields rfl dot_notMem_int (by split_ifs <;> simp),
    Addr.splitOn_fields (f := Nat.repr) rfl Addr.dot_notMem (cons_ne_nil _ _), length_map,
    length_map, length_append, hlength] at hfields
  split_ifs at hfields
  all_goals
    simp only [length_cons, length_nil] at hfields
    omega

theorem decodeOID_eq (hfirst : first ≤ 2) (hsecond : first < 2 → second < 40)
    (harcs : ∀ arc ∈ arcs, arc < 2 ^ 63) (hn : 40 * first + second < 128) :
    decodeOID (derOID first second arcs) = ObjectIdentifier.toDotted (first :: second :: arcs) := by
  have hder : derOID first second arcs =
      UInt8.ofNat (40 * first + second) :: arcs.flatMap subidentifier := by
    rw [derOID, subidentifier, Nat.div_eq_of_lt hn, leading, Nat.mod_eq_of_lt hn]
    rfl
  have hhead : (UInt8.ofNat (40 * first + second)).toNat = 40 * first + second := by
    rw [UInt8.toNat_ofNat']
    omega
  have hmap : ∀ l : List ℕ, (l.map Nat.cast).map (toString : ℤ → String) = l.map Nat.repr :=
    fun l => by rw [map_map]; rfl
  rw [hder, decodeOID, oidComponents_flatMap harcs, hhead, ObjectIdentifier.toDotted, ← hmap]
  refine congrArg (fun l : List ℤ => ".".intercalate ((l ++ arcs.map Nat.cast).map toString))
    (?_ : _ = [(first : ℤ), (second : ℤ)])
  split_ifs
  all_goals
    simp only [cons.injEq, and_true]
    omega

/-! ### The extension -/

theorem parseTemplateExtension_eq {oid tail : List UInt8} (h : 2 + oid.length + tail.length < 128) :
    parseTemplateExtension (templateExtension oid tail) = .ok (decodeOID oid) := by
  have hoctet : ∀ k < 256, (UInt8.ofNat k).toNat = k := fun k hk => by
    rw [UInt8.toNat_ofNat', Nat.mod_eq_of_lt hk]
  simp only [parseTemplateExtension, templateExtension, index, slice, bind, Except.bind,
    hoctet (2 + oid.length + tail.length) (by omega), hoctet oid.length (by omega), length_cons,
    length_append, getElem?_cons_zero, getElem?_cons_succ, ne_eq, not_true, if_false]
  rw [if_neg (by omega), if_neg (by omega), if_neg (by omega), if_neg (by omega),
    if_neg (by omega), if_pos ⟨by omega, by omega⟩]
  simp

/-- **`decodeOID` inverts DER exactly when the first two arcs fit one octet**, and reading a
template extension does the same and never indexes out of range. -/
theorem decodeOID_inverts_iff (hfirst : first ≤ 2) (hsecond : first < 2 → second < 40)
    (harcs : ∀ arc ∈ arcs, arc < 2 ^ 63) :
    (decodeOID (derOID first second arcs) = ObjectIdentifier.toDotted (first :: second :: arcs) ∧
      (∀ tail, 2 + (derOID first second arcs).length + tail.length < 128 →
        parseTemplateExtension (templateExtension (derOID first second arcs) tail) =
          .ok (ObjectIdentifier.toDotted (first :: second :: arcs))) ∧
      ∀ data, ∃ s, parseTemplateExtension data = .ok s) ↔ (first = 2 → second < 48) := by
  rcases lt_or_ge (40 * first + second) 128 with hn | hn
  · have heq := decodeOID_eq hfirst hsecond harcs hn
    refine iff_of_true ⟨heq, fun tail hshort => ?_, parseTemplateExtension_ok⟩ (by omega)
    rw [parseTemplateExtension_eq hshort, heq]
  · exact iff_of_false (fun h => decodeOID_ne harcs hn h.1) (by omega)

/-- 1.3.6.1.4.1.311.21.7, the extension's own identifier. -/
theorem decodeOID_inverts_template : decodeOID (derOID 1 3 [6, 1, 4, 1, 311, 21, 7]) =
      ObjectIdentifier.toDotted (1 :: 3 :: [6, 1, 4, 1, 311, 21, 7]) :=
  ((decodeOID_inverts_iff (by decide) (by decide) (by decide)).mpr (by decide)).1

/-- 2.999 comes out as 2.56.55. -/
theorem decodeOID_ne_example : derOID 2 999 [] = [0x88, 0x37] ∧ decodeOID [0x88, 0x37] = "2.56.55" ∧
      decodeOID (derOID 2 999 []) ≠ ObjectIdentifier.toDotted [2, 999] := by
  refine ⟨?_, by decide +kernel, decodeOID_ne (by simp) (by decide)⟩
  simp [derOID, subidentifier, leading]

end Mtls
