/-
Internet addresses as bytes, and the texts that Go's `net` and `netip` packages
write for them.

The two packages disagree on an IPv4 address that is held in sixteen bytes: `net.IP`
writes it in dotted form and compares it equal to the four-byte address, `netip.Addr`
writes it with `::ffff:` in front and tells the two apart.
-/
import Mathlib.Data.String.Basic

namespace Addr

open List

/-- The first twelve of the sixteen bytes of a mapped IPv4 address. -/
def v4InV6Prefix : List UInt8 := [0, 0, 0, 0, 0, 0, 0, 0, 0, 0, 0xff, 0xff]

variable (b : List UInt8)

def isV4Mapped : Bool :=
  b.length == 16 && b.take 12 == v4InV6Prefix

def to4 : Option (List UInt8) :=
  if b.length = 4 then some b
  else if isV4Mapped b then some (b.drop 12)
  else none

def unmap : List UInt8 :=
  if isV4Mapped b then b.drop 12 else b

def is6 : Bool :=
  b.length == 16

def dotted : String :=
  ".".intercalate (b.map fun x => toString x.toNat)

/-- A number in base sixteen, without leading zeros. -/
def hex (n : ℕ) : String :=
  String.ofList (Nat.toDigits 16 n)

/-- The sixteen-bit words of the address. -/
def words : List UInt8 → List ℕ
  | hi :: lo :: rest => (hi.toNat * 256 + lo.toNat) :: words rest
  | _ => []

/-- Start and length of the first longest run of at least two zero words; length 0 if
there is none. -/
def zeroRun (ws : List ℕ) : ℕ × ℕ :=
  (List.range ws.length).foldl (fun best i =>
    let n := ((ws.drop i).takeWhile (· == 0)).length
    if 2 ≤ n ∧ best.2 < n then (i, n) else best) (0, 0)

/-- `netip.Addr.string6`: words in base sixteen, the longest run of zeros as `::`. -/
def textV6 : String :=
  let ws := words b
  let (start, n) := zeroRun ws
  let join (l : List ℕ) := ":".intercalate (l.map hex)
  if n = 0 then join ws else join (ws.take start) ++ "::" ++ join (ws.drop (start + n))

def ipText : String :=
  if b.length = 0 then "<nil>"
  else match to4 b with
    | some q => dotted q
    | none =>
      if b.length = 16 then textV6 b
      else "?" ++ String.join (b.map fun x => hex (x.toNat / 16) ++ hex (x.toNat % 16))

/-- `netip.Addr.String` of an address with the given zone. -/
def addrText (zone : String) : String :=
  let zoned := if zone = "" then "" else "%" ++ zone
  if b.length = 4 then dotted b
  else if b.length = 16 then
    if isV4Mapped b then "::ffff:" ++ dotted (b.drop 12) ++ zoned else textV6 b ++ zoned
  else "invalid IP"

def equal (x y : List UInt8) : Bool :=
  if x.length = y.length then x == y
  else if x.length = 4 ∧ y.length = 16 then isV4Mapped y && x == y.drop 12
  else if x.length = 16 ∧ y.length = 4 then isV4Mapped x && x.drop 12 == y
  else false

def prefixText (bits : ℕ) : String :=
  if (b.length = 4 ∧ bits ≤ 32) ∨ (b.length = 16 ∧ bits ≤ 128)
  then addrText b "" ++ "/" ++ toString bits
  else "invalid Prefix"

/-! ### The characters of an address -/

theorem mem_of_mem_intercalate {α : Type} {sep : List α} {x : α} {l : List (List α)}
    (h : x ∈ sep.intercalate l) : x ∈ sep ∨ ∃ y ∈ l, x ∈ y := by
  induction l with
  | nil => simp at h
  | cons y l ih =>
    rcases l with _ | ⟨z, l⟩
    · rw [intercalate_singleton] at h
      exact .inr ⟨y, mem_cons_self, h⟩
    · rw [intercalate_cons_cons, mem_append, mem_append] at h
      rcases h with (h | h) | h
      · exact .inr ⟨y, mem_cons_self, h⟩
      · exact .inl h
      · rcases ih h with h | ⟨w, hw, h⟩
        · exact .inl h
        · exact .inr ⟨w, mem_cons_of_mem _ hw, h⟩

theorem digitChar_mem : ∀ n < 16, Nat.digitChar n ∈ "0123456789abcdef".toList := by decide

variable {c : Char}

theorem mem_of_mem_toDigits {b n : ℕ} (hb : 0 < b) (hb' : b ≤ 16)
    (h : c ∈ Nat.toDigits b n) : c ∈ "0123456789abcdef".toList := by
  have hcore : ∀ (fuel n : ℕ) (ds : List Char), (∀ c ∈ ds, c ∈ "0123456789abcdef".toList) →
      ∀ c ∈ Nat.toDigitsCore b fuel n ds, c ∈ "0123456789abcdef".toList := by
    intro fuel
    induction fuel with
    | zero => exact fun n ds hds => hds
    | succ fuel ih =>
      intro n ds hds
      have hcons : ∀ c ∈ Nat.digitChar (n % b) :: ds, c ∈ "0123456789abcdef".toList :=
        forall_mem_cons.mpr ⟨digitChar_mem _ (lt_of_lt_of_le (Nat.mod_lt n hb) hb'), hds⟩
      rw [Nat.toDigitsCore]
      split_ifs
      · exact hcons
      · exact ih _ _ hcons
  exact hcore _ _ _ (by simp) c h

theorem mem_hex {n : ℕ} (h : c ∈ (hex n).toList) : c ∈ "0123456789abcdef".toList := by
  rw [hex, String.toList_ofList] at h
  exact mem_of_mem_toDigits (by decide) (by decide) h

theorem mem_repr {n : ℕ} (h : c ∈ (toString n).toList) : c ∈ "0123456789abcdef".toList :=
  mem_of_mem_toDigits (b := 10) (n := n) (by decide) (by decide) (by simpa using h)

theorem mem_of_mem_join {α : Type} {sep : String} {d : Char} (hsep : sep.toList = [d])
    {f : α → String} {l : List α} (h : c ∈ (sep.intercalate (l.map f)).toList) :
    c = d ∨ ∃ x, c ∈ (f x).toList := by
  rw [String.toList_intercalate, hsep] at h
  rcases mem_of_mem_intercalate h with h | ⟨y, hy, h⟩
  · exact .inl (mem_singleton.mp h)
  · simp only [map_map, mem_map] at hy
    obtain ⟨x, -, rfl⟩ := hy
    exact .inr ⟨x, h⟩

theorem mem_chars_of_mem_textV6 {b : List UInt8} (h : c ∈ (textV6 b).toList) :
    c = ':' ∨ c ∈ "0123456789abcdef".toList := by
  have hjoin : ∀ l : List ℕ, c ∈ (":".intercalate (l.map hex)).toList →
      c = ':' ∨ c ∈ "0123456789abcdef".toList :=
    fun l h => (mem_of_mem_join rfl h).imp_right fun ⟨_, h⟩ => mem_hex h
  rw [textV6] at h
  dsimp only at h
  split_ifs at h
  · exact hjoin _ h
  · rw [String.toList_append, String.toList_append, mem_append, mem_append] at h
    rcases h with (h | h) | h
    · exact hjoin _ h
    · exact .inl (by simpa using h)
    · exact hjoin _ h

theorem intercalate_ne_empty {sep x y : String} {l : List String} (hsep : sep ≠ "") :
    sep.intercalate (x :: y :: l) ≠ "" := by
  intro h
  have hlist := congrArg String.toList h
  rw [String.toList_intercalate, map_cons, map_cons, intercalate_cons_cons,
    String.toList_empty, append_eq_nil_iff, append_eq_nil_iff] at hlist
  exact hsep (String.toList_eq_nil_iff.mp hlist.1.2)

example : ipText [100, 64, 0, 1] = "100.64.0.1" := by decide

example : addrText [0xfe, 0x80, 0, 0, 0, 0, 0, 0, 0, 0, 0, 0, 0, 0, 0, 1] "eth0" = "fe80::1%eth0" := by
  decide

end Addr
