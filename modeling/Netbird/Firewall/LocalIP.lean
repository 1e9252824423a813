/-
The addresses of the host, as the filter tests for them (`uspfilter/localip.go`).

An IPv4 address is one bit: the first octet selects a bitmap, the other three are packed into 16
bits.  The third octet is shifted by four, so it overlaps with the fourth and with the second, and
an address that nobody reported can have the bit of one that was.

* `isLocalIP_exact_iff` — when the test says what was reported.
-/
import Netbird.Lib.Addr

namespace Netbird.Firewall

/-- `localIPManager`: the words of a bitmap for each first octet. -/
structure LocalIPManager where
  ipv4Bitmap : UInt8 → Option (ℕ → BitVec 32)

namespace LocalIPManager

/-- The bit of an IPv4 address: its first octet, and the others as they are packed. -/
def bitOf : List UInt8 → Option (UInt8 × UInt16)
  | [a, b, c, d] => some (a, b.toUInt16 <<< 8 ||| c.toUInt16 <<< 4 ||| d.toUInt16)
  | _ => none

variable (m : LocalIPManager)

def setBitInBitmap (ip : List UInt8) : LocalIPManager :=
  match bitOf ip with
  | none => m
  | some (high, low) =>
    let bitmap := (m.ipv4Bitmap high).getD fun _ => 0
    let index := low.toNat / 32
    let bit := low.toNat % 32
    ⟨Function.update m.ipv4Bitmap high
      (some (Function.update bitmap index (bitmap index ||| 1#32 <<< bit)))⟩

def checkBitmapBit (high : UInt8) (low : UInt16) : Bool :=
  match m.ipv4Bitmap high with
  | none => false
  | some bitmap => bitmap (low.toNat / 32) &&& 1#32 <<< (low.toNat % 32) != 0#32

def isLocalIP (ip : List UInt8) : Bool :=
  match bitOf ip with
  | none => false
  | some (high, low) => m.checkBitmapBit high low

/-- The addresses of the WireGuard interface, if there is one, and of the system's interfaces. -/
def reported (wgIP : Option (List UInt8)) (addrs : List (List UInt8)) : List (List UInt8) :=
  wgIP.toList ++ addrs.map Addr.unmap

/-- The bitmaps of `UpdateLocalIPs` before the first address: all of 127.0.0.0/8. -/
def loopback : LocalIPManager :=
  ⟨fun high => if high = 127 then some fun _ => BitVec.allOnes 32 else none⟩

def updateLocalIPs (wgIP : Option (List UInt8)) (addrs : List (List UInt8)) : LocalIPManager :=
  (reported wgIP addrs).foldl setBitInBitmap loopback

/-! ### Bits -/

theorem and_one_shiftLeft_ne_zero (x : BitVec 32) {bit : ℕ} (h : bit < 32) :
    (x &&& 1#32 <<< bit != 0#32) = x.getLsbD bit := by
  have hne : BitVec.twoPow 32 bit ≠ 0#32 := by
    intro hzero
    have hbit := congrArg (·.getLsbD bit) hzero
    simp [h] at hbit
  rw [← BitVec.twoPow_eq, BitVec.and_twoPow]
  cases hx : x.getLsbD bit <;> simp [hne]

theorem checkBitmapBit_eq (high : UInt8) (low : UInt16) : m.checkBitmapBit high low =
      (((m.ipv4Bitmap high).getD fun _ => 0) (low.toNat / 32)).getLsbD (low.toNat % 32) := by
  unfold checkBitmapBit
  rcases m.ipv4Bitmap high with _ | bitmap
  · simp
  · exact and_one_shiftLeft_ne_zero _ (Nat.mod_lt _ (by decide))

theorem isLocalIP_setBitInBitmap (r a : List UInt8) : (m.setBitInBitmap r).isLocalIP a = true ↔
      m.isLocalIP a = true ∨ bitOf r = bitOf a ∧ (bitOf a).isSome = true := by
  unfold setBitInBitmap isLocalIP
  rcases ha : bitOf a with _ | bit
  · simp
  · rcases hr : bitOf r with _ | bit'
    · simp
    · obtain ⟨high, low⟩ := bit
      obtain ⟨high', low'⟩ := bit'
      -- the word and the place in it say which bit it is
      have hlow : low' = low ↔ low.toNat / 32 = low'.toNat / 32 ∧ low.toNat % 32 = low'.toNat % 32 := by
        rw [← UInt16.toNat_inj]
        omega
      simp only [checkBitmapBit_eq, Option.some.injEq, Prod.mk.injEq, hlow]
      by_cases hhigh : high' = high
      · subst hhigh
        by_cases hindex : low.toNat / 32 = low'.toNat / 32
        · have hbit : low'.toNat % 32 < 32 := Nat.mod_lt _ (by decide)
          simp [hindex, hbit, ← BitVec.twoPow_eq, BitVec.getLsbD_twoPow,
            eq_comm (a := low.toNat % 32)]
        · simp [hindex]
      · simp [hhigh, Ne.symm hhigh]

theorem isLocalIP_foldl (rs : List (List UInt8)) (a : List UInt8) :
    (rs.foldl setBitInBitmap m).isLocalIP a = true ↔ m.isLocalIP a = true ∨
      ∃ r ∈ rs, bitOf r = bitOf a ∧ (bitOf a).isSome = true := by
  induction rs generalizing m with
  | nil => simp
  | cons r rs ih => simp [ih, isLocalIP_setBitInBitmap, or_assoc]

/-- The address is in 127.0.0.0/8. -/
def IsLoopback (a : List UInt8) : Prop := ∃ bcd, a = 127 :: bcd

theorem isLocalIP_loopback {a : List UInt8} (h : a.length = 4) :
    loopback.isLocalIP a = true ↔ IsLoopback a := by
  match a, h with
  | [a, b, c, d], _ =>
    simp only [isLocalIP, bitOf, checkBitmapBit_eq, loopback, IsLoopback]
    split_ifs with ha
    · refine iff_of_true ?_ ⟨_, by rw [ha]⟩
      rw [Option.getD_some, BitVec.getLsbD_allOnes]
      exact decide_eq_true (Nat.mod_lt _ (by decide))
    · simp [ha]

/-- **What the test says** of an IPv4 address. -/
theorem isLocalIP_updateLocalIPs {wgIP : Option (List UInt8)} {addrs : List (List UInt8)}
    {a : List UInt8} (h : a.length = 4) : (updateLocalIPs wgIP addrs).isLocalIP a = true ↔
      IsLoopback a ∨ ∃ r ∈ reported wgIP addrs, bitOf r = bitOf a := by
  have hsome : (bitOf a).isSome = true := by
    match a, h with
    | [_, _, _, _], _ => rfl
  simp only [updateLocalIPs, isLocalIP_foldl, isLocalIP_loopback h, hsome, and_true]

/-- **When the test is exact**: no IPv4 address has the bit of a reported one, unless it is reported
itself or in 127.0.0.0/8. -/
theorem isLocalIP_exact_iff (wgIP : Option (List UInt8)) (addrs : List (List UInt8)) :
    (∀ a : List UInt8, a.length = 4 → ((updateLocalIPs wgIP addrs).isLocalIP a = true ↔
        IsLoopback a ∨ a ∈ reported wgIP addrs)) ↔
      ∀ r ∈ reported wgIP addrs, ∀ a : List UInt8, a.length = 4 → bitOf r = bitOf a →
        IsLoopback a ∨ a ∈ reported wgIP addrs := by
  constructor
  · intro h r hr a ha hbit
    exact (h a ha).mp ((isLocalIP_updateLocalIPs ha).mpr (.inr ⟨r, hr, hbit⟩))
  · intro h a ha
    rw [isLocalIP_updateLocalIPs ha]
    constructor
    · rintro (hloop | ⟨r, hr, hbit⟩)
      · exact .inl hloop
      · exact h r hr a ha hbit
    · exact Or.imp_right fun hmem => ⟨a, hmem, rfl⟩

/-- Only 10.0.1.0 is reported, and 10.0.0.16 has its bit. -/
theorem unreported_address_local : reported none [[10, 0, 1, 0]] = [[10, 0, 1, 0]] ∧
      (updateLocalIPs none [[10, 0, 1, 0]]).isLocalIP [10, 0, 0, 16] = true :=
  ⟨rfl, (isLocalIP_updateLocalIPs rfl).mpr (.inr ⟨_, List.mem_singleton_self _, by decide⟩)⟩

end LocalIPManager

end Netbird.Firewall
