/-
Addresses for the peers of an account, after its network range changed.

`AllocatePeerIP` computes with 32 bits: the network address is 0 for an address that is not
IPv4, and the number of addresses is 0 for 32 host bits and more. Some random offsets are tried
first, then all of them in order.

* `allocateOutside_spec` — allocation below an IPv4 address, whatever the generator yields;
* `reallocate_sound_iff` — for which ranges the new addresses are right.
-/
import Mathlib.Data.BitVec
import Mathlib.Tactic.IntervalCases
import Netbird.Lib.Checked

namespace Netbird.Network

open List Except Nat

/-! ### Addresses -/

/-- An address of 4 or of 16 bytes. A `net.IP` is one of these, or a slice of another length. -/
inductive IP where
  | four (a : BitVec 32)
  | sixteen (a : BitVec 128)
  deriving DecidableEq

/-- `net.CIDRMask(ones, bits)`, with its size. -/
structure IPMask where
  ones : ℕ
  bits : ℕ

structure IPNet where
  ip : IP
  mask : IPMask

/-- The mask of `w` bits that clears the last `h`. -/
def hostMask (w h : ℕ) : BitVec w := BitVec.allOnes w <<< h

def IP.to4 : IP → Option (BitVec 32)
  | .four a => some a
  | .sixteen a => if a >>> 32 = 0xffff#128 then some (a.setWidth 32) else none

def IP.masked (ip : IP) (m : IPMask) : Option IP :=
  match ip, m.bits with
  | .four a, 32 => some (.four (a &&& hostMask 32 (32 - m.ones)))
  | .four a, 128 => if 96 ≤ m.ones then some (.four (a &&& hostMask 32 (128 - m.ones))) else none
  | .sixteen a, 128 => some (.sixteen (a &&& hostMask 128 (128 - m.ones)))
  | .sixteen a, 32 => (IP.sixteen a).to4.map fun b => .four (b &&& hostMask 32 (32 - m.ones))
  | _, _ => none

def ipToUint32 (ip : Option IP) : BitVec 32 := (ip.bind IP.to4).getD 0

def uint32ToIP (n : BitVec 32) : IP := .four n

/-! ### Allocation -/

/-- A panic is `rand.Intn` of a number that is not positive. -/
inductive AllocError where
  | outOfIPs
  | panic
  deriving DecidableEq

section
variable (baseIP totalIPs : BitVec 32) (taken : List (BitVec 32)) (draws : ℕ → ℕ)

/-- The random attempts, the next one being number `i`. -/
def attempts : ℕ → ℕ → Except AllocError (Option (BitVec 32))
  | 0, _ => .ok none
  | n + 1, i =>
    if totalIPs - 2 = 0 then .error .panic
    else
      let offset := BitVec.ofNat 32 (draws i % (totalIPs - 2).toNat) + 1
      if baseIP + offset ∈ taken then attempts n (i + 1) else .ok (some (baseIP + offset))

/-- The offsets in order, from 1 to below `totalIPs - 1`. -/
def firstFree : Option (BitVec 32) :=
  ((List.range' 1 ((totalIPs - 1).toNat - 1)).map fun offset =>
    baseIP + BitVec.ofNat 32 offset).find? (· ∉ taken)

def maxAttempts : ℤ := ((totalIPs.toNat : ℤ) - taken.dedup.length).tdiv 100

/-- The two phases. -/
def allocateOutside : Except AllocError IP :=
  match attempts baseIP totalIPs taken draws (maxAttempts totalIPs taken).toNat 0 with
  | .error e => .error e
  | .ok (some candidate) => .ok (uint32ToIP candidate)
  | .ok none =>
    match firstFree baseIP totalIPs taken with
    | some candidate => .ok (uint32ToIP candidate)
    | none => .error .outOfIPs
end

/-- `AllocatePeerIP`; `draws` are the numbers of the generator, before they are cut to range. -/
def allocatePeerIP (ipNet : IPNet) (takenIps : List (Option IP)) (draws : ℕ → ℕ) :
    Except AllocError IP :=
  let baseIP := ipToUint32 (ipNet.ip.masked ipNet.mask)
  let totalIPs := 1#32 <<< (ipNet.mask.bits - ipNet.mask.ones)
  allocateOutside baseIP totalIPs
    (baseIP :: (baseIP + totalIPs - 1) :: takenIps.map ipToUint32) draws

/-! ### Host addresses -/

/-- The network address of the range of `h` host bits around `a`. -/
def network {w : ℕ} (h : ℕ) (a : BitVec w) : BitVec w := a &&& hostMask w h

/-- The last address of the range. -/
def broadcast {w : ℕ} (h : ℕ) (a : BitVec w) : BitVec w := network h a ||| ~~~ hostMask w h

/-- In the range, and neither its network nor its broadcast address. -/
def IsHost {w : ℕ} (h : ℕ) (a x : BitVec w) : Prop :=
  network h x = network h a ∧ x ≠ network h a ∧ x ≠ broadcast h a

variable {h : ℕ} {a x : BitVec 32}

theorem network_eq_shift (h : ℕ) (a : BitVec 32) : network h a = a >>> h <<< h := by
  ext i hi
  by_cases hlt : i < h
  · simp [network, hostMask, hlt]
  · have hadd : h + (i - h) = i := by omega
    simp only [network, hostMask, BitVec.getElem_and, BitVec.getElem_shiftLeft, hlt,
      BitVec.getElem_allOnes, hadd, BitVec.getLsbD_eq_getElem hi, decide_false, Bool.not_false,
      Bool.and_true, Bool.true_and, BitVec.getElem_ushiftRight]

theorem toNat_network (h : ℕ) (a : BitVec 32) : (network h a).toNat = a.toNat / 2 ^ h * 2 ^ h := by
  rw [network_eq_shift, BitVec.toNat_shiftLeft, BitVec.toNat_ushiftRight, shiftLeft_eq,
    shiftRight_eq_div_pow]
  exact mod_eq_of_lt (lt_of_le_of_lt (div_mul_le_self _ _) a.isLt)

/-- With 32 host bits the number of addresses is 0, and the last offset is right all the same. -/
theorem not_hostMask (hh : h ≤ 32) : ~~~ hostMask 32 h = 1#32 <<< h - 1 ∧
    (1#32 <<< h - 1).toNat = 2 ^ h - 1 := by
  interval_cases h <;> exact ⟨rfl, rfl⟩

/-- The number of offsets that the random phase draws from, where there are any. -/
theorem toNat_span (hh : h ≤ 32) (hbig : 2 < (1#32 <<< h).toNat) :
    2 < 2 ^ h ∧ (1#32 <<< h - 2).toNat = 2 ^ h - 2 := by
  interval_cases h <;> revert hbig <;> decide

theorem broadcast_eq (hh : h ≤ 32) (a : BitVec 32) :
    broadcast h a = network h a + 1#32 <<< h - 1 := by
  have hdisjoint : network h a &&& ~~~ hostMask 32 h = 0#32 := by
    rw [network, BitVec.and_assoc, BitVec.and_not_self]
    exact BitVec.and_zero
  rw [broadcast, ← BitVec.add_eq_or_of_and_eq_zero _ _ hdisjoint, (not_hostMask hh).1,
    add_sub_assoc]

theorem network_add_le (hh : h ≤ 32) (a : BitVec 32) : (network h a).toNat + 2 ^ h ≤ 2 ^ 32 := by
  have hdiv : a.toNat / 2 ^ h < 2 ^ (32 - h) := by
    rw [Nat.div_lt_iff_lt_mul (Nat.two_pow_pos h), ← pow_add, Nat.sub_add_cancel hh]
    exact a.isLt
  calc (network h a).toNat + 2 ^ h = (a.toNat / 2 ^ h + 1) * 2 ^ h := by
        rw [toNat_network, Nat.succ_mul]
    _ ≤ 2 ^ (32 - h) * 2 ^ h := mul_le_mul_right _ hdiv
    _ = 2 ^ 32 := by rw [← pow_add, Nat.sub_add_cancel hh]

/-- The host addresses are the network address plus an offset between 1 and the last but one. -/
theorem isHost_iff (hh : h ≤ 32) :
    IsHost h a x ↔ ∃ o, 1 ≤ o ∧ o + 1 < 2 ^ h ∧ x = network h a + BitVec.ofNat 32 o := by
  have hbound := network_add_le hh a
  have hlast : (broadcast h a).toNat = (network h a).toNat + (2 ^ h - 1) := by
    rw [broadcast_eq hh, add_sub_assoc, BitVec.toNat_add, (not_hostMask hh).2]
    exact mod_eq_of_lt (by omega)
  have hnet : (network h a).toNat = a.toNat / 2 ^ h * 2 ^ h := toNat_network h a
  have hsame : network h x = network h a ↔
      (network h a).toNat ≤ x.toNat ∧ x.toNat < (network h a).toNat + 2 ^ h := by
    rw [← BitVec.toNat_inj, toNat_network h x, hnet,
      Nat.mul_left_inj (Nat.two_pow_pos h).ne', ← Nat.succ_mul,
      ← le_div_iff_mul_le (Nat.two_pow_pos h), ← Nat.div_lt_iff_lt_mul (Nat.two_pow_pos h)]
    omega
  rw [IsHost, hsame, Ne, Ne, ← BitVec.toNat_inj, ← BitVec.toNat_inj]
  constructor
  · rintro ⟨⟨hlow, hhigh⟩, hfirst, hlast⟩
    refine ⟨x.toNat - (network h a).toNat, by omega, by omega, ?_⟩
    rw [← BitVec.toNat_inj, BitVec.toNat_add, BitVec.toNat_ofNat]
    omega
  · rintro ⟨o, hone, hsmall, rfl⟩
    rw [BitVec.toNat_add, BitVec.toNat_ofNat]
    omega

/-! ### The phases -/

section
variable {taken : List (BitVec 32)} {draws : ℕ → ℕ} {c : BitVec 32}

/-- A candidate of the random phase is a free host address, and the phase does not panic. -/
theorem attempts_spec (hh : h ≤ 32) (n i : ℕ) (hn : n = 0 ∨ 2 < (1#32 <<< h).toNat) :
    ∃ r, attempts (network h a) (1#32 <<< h) taken draws n i = .ok r ∧
      ∀ c, r = some c → IsHost h a c ∧ c ∉ taken := by
  induction n generalizing i with
  | zero => exact ⟨none, rfl, fun c hc => nomatch hc⟩
  | succ n ih =>
    have hbig : 2 < (1#32 <<< h).toNat := hn.resolve_left (succ_ne_zero n)
    obtain ⟨hpow, hspan⟩ := toNat_span hh hbig
    have hne : 1#32 <<< h - 2 ≠ 0 := by
      intro h0
      rw [h0] at hspan
      have hzero : (0 : BitVec 32).toNat = 0 := rfl
      omega
    rw [attempts, if_neg hne]
    dsimp only
    split
    · exact ih (i + 1) (.inr hbig)
    · next hfree =>
      refine ⟨_, rfl, ?_⟩
      rintro c ⟨⟩
      refine ⟨(isHost_iff hh).mpr ⟨draws i % (2 ^ h - 2) + 1, by omega, ?_, ?_⟩, hfree⟩
      · have := mod_lt (draws i) (show 0 < 2 ^ h - 2 by omega)
        omega
      · rw [hspan, BitVec.ofNat_add]
        rfl

theorem mem_hosts (hh : h ≤ 32) :
    x ∈ (range' 1 (2 ^ h - 1 - 1)).map (fun o => network h a + BitVec.ofNat 32 o) ↔
      IsHost h a x := by
  rw [isHost_iff hh, mem_map]
  constructor
  · rintro ⟨o, ho, rfl⟩
    rw [mem_range'_1] at ho
    exact ⟨o, by omega, by omega, rfl⟩
  · rintro ⟨o, hone, hsmall, rfl⟩
    exact ⟨o, mem_range'_1.mpr (by omega), rfl⟩

theorem firstFree_spec (hh : h ≤ 32) :
    (∀ c, firstFree (network h a) (1#32 <<< h) taken = some c → IsHost h a c ∧ c ∉ taken) ∧
      (firstFree (network h a) (1#32 <<< h) taken = none ↔ ∀ x, IsHost h a x → x ∈ taken) := by
  rw [firstFree, (not_hostMask hh).2]
  constructor
  · intro c hc
    have hfree := find?_some hc
    exact ⟨(mem_hosts hh).mp (mem_of_find?_eq_some hc), of_decide_eq_true hfree⟩
  · rw [find?_eq_none]
    refine forall_congr' fun x => ?_
    rw [mem_hosts hh, decide_eq_true_eq, not_not]
end

/-- Of the marked addresses, only those of the list are host addresses. -/
theorem IsHost.mem_taken_iff (hh : h ≤ 32) (hx : IsHost h a x) (ips : List (Option IP)) :
    x ∈ network h a :: (network h a + 1#32 <<< h - 1) :: ips.map ipToUint32 ↔
      x ∈ ips.map ipToUint32 := by
  rw [mem_cons, mem_cons, ← broadcast_eq hh, or_iff_right hx.2.1, or_iff_right hx.2.2]

/-- An attempt is made only if a hundred addresses are not marked. -/
theorem maxAttempts_spec (total : BitVec 32) (taken : List (BitVec 32)) :
    (maxAttempts total taken).toNat = 0 ∨ 2 < total.toNat := by
  rcases lt_or_ge 2 total.toNat with hbig | hsmall
  · exact .inr hbig
  · refine .inl (Int.toNat_eq_zero.mpr ?_)
    rcases le_total 0 ((total.toNat : ℤ) - taken.dedup.length) with hpos | hneg
    · rw [maxAttempts, Int.tdiv_eq_ediv_of_nonneg hpos]
      omega
    · have hflip := Int.tdiv_nonneg (Int.neg_nonneg_of_nonpos hneg) (show (0 : ℤ) ≤ 100 by decide)
      rw [Int.neg_tdiv] at hflip
      exact Int.nonpos_of_neg_nonneg hflip

/-- **Allocation**: a free host address, or an error if every host address is taken. -/
theorem allocateOutside_spec (hh : h ≤ 32) (ips : List (Option IP)) (draws : ℕ → ℕ) :
    let r := allocateOutside (network h a) (1#32 <<< h)
      (network h a :: (network h a + 1#32 <<< h - 1) :: ips.map ipToUint32) draws
    (∃ x, r = .ok (.four x) ∧ IsHost h a x ∧ x ∉ ips.map ipToUint32) ∨
      r = .error .outOfIPs ∧ ∀ x, IsHost h a x → x ∈ ips.map ipToUint32 := by
  intro r
  let taken := network h a :: (network h a + 1#32 <<< h - 1) :: ips.map ipToUint32
  have hfree : ∀ c, IsHost h a c ∧ c ∉ taken → IsHost h a c ∧ c ∉ ips.map ipToUint32 :=
    fun c hc => ⟨hc.1, fun hmem => hc.2 ((hc.1.mem_taken_iff hh ips).mpr hmem)⟩
  obtain ⟨found, hattempts, hrandom⟩ := @attempts_spec h a taken draws hh
    (maxAttempts (1#32 <<< h) taken).toNat 0 (maxAttempts_spec _ _)
  obtain ⟨hfound, hnone⟩ := @firstFree_spec h a taken hh
  have hr : r = allocateOutside (network h a) (1#32 <<< h) taken draws := rfl
  rw [allocateOutside, hattempts] at hr
  rcases found with _ | c
  · rcases hscan : firstFree (network h a) (1#32 <<< h) taken with _ | c
    · simp only [hscan] at hr
      exact .inr ⟨hr, fun x hx => (hx.mem_taken_iff hh ips).mp (hnone.mp hscan x hx)⟩
    · simp only [hscan] at hr
      exact .inl ⟨c, hr, hfree c (hfound c hscan)⟩
  · exact .inl ⟨c, hr, hfree c (hrandom c rfl)⟩

theorem IsHost.ne_zero (hx : IsHost h a x) : x ≠ 0 := by
  rintro rfl
  exact hx.2.1 ((BitVec.zero_and).symm.trans hx.1)

/-- What is marked for an address that is not IPv4 is not a host address. -/
theorem IsHost.mem_map_iff (hx : IsHost h a x) (ips : List (Option IP)) :
    x ∈ ips.map ipToUint32 ↔ some x ∈ ips.map (·.bind IP.to4) := by
  rw [mem_map, mem_map]
  refine exists_congr fun ip => and_congr_right fun _ => ?_
  rw [ipToUint32]
  rcases ip.bind IP.to4 with _ | y
  · exact ⟨fun h0 => absurd h0.symm hx.ne_zero, fun h0 => nomatch h0⟩
  · exact (Option.some_inj).symm

/-- A range that the allocator can represent: what it computes with are the 32 bits. -/
structure Represents (n : IPNet) (h : ℕ) (a : BitVec 32) : Prop where
  hostBits : n.mask.bits - n.mask.ones = h
  le : h ≤ 32
  base : ipToUint32 (n.ip.masked n.mask) = network h a

variable {n : IPNet}

theorem Represents.allocate (hn : Represents n h a) (ips : List (Option IP)) (draws : ℕ → ℕ) :
    (∃ x, allocatePeerIP n ips draws = .ok (.four x) ∧ IsHost h a x ∧ x ∉ ips.map ipToUint32) ∨
      allocatePeerIP n ips draws = .error .outOfIPs ∧
        ∀ x, IsHost h a x → x ∈ ips.map ipToUint32 := by
  have hspec := allocateOutside_spec hn.le (a := a) ips draws
  rw [allocatePeerIP, hn.base, hn.hostBits]
  exact hspec

/-- There are all but two host addresses. -/
theorem length_le_of_all_taken (hh : h ≤ 32) {l : List (BitVec 32)}
    (hall : ∀ x, IsHost h a x → x ∈ l) : 2 ^ h - 2 ≤ l.length := by
  have hpow : (2 : ℕ) ^ h ≤ 2 ^ 32 := Nat.pow_le_pow_right (by omega) hh
  let hosts := (range' 1 (2 ^ h - 1 - 1)).map fun o => network h a + BitVec.ofNat 32 o
  have hnodup : hosts.Nodup := by
    refine List.Nodup.map_on ?_ nodup_range'
    intro o ho o' ho' heq
    rw [mem_range'_1] at ho ho'
    have hof := congrArg BitVec.toNat (add_left_cancel heq)
    rw [BitVec.toNat_ofNat, BitVec.toNat_ofNat] at hof
    omega
  have hsub : hosts ⊆ l := fun x hx => hall x ((mem_hosts hh).mp hx)
  have hlength := (hnodup.subperm hsub).length_le
  rwa [length_map, length_range'] at hlength

/-! ### Admitted ranges -/

def IP.bitLen : IP → ℕ
  | .four _ => 32
  | .sixteen _ => 128

def IP.is4 : IP → Bool
  | .four _ => true
  | .sixteen _ => false

/-- `netip.Prefix`. -/
structure Prefix where
  addr : IP
  bits : ℕ
  bits_le : bits ≤ addr.bitLen

def IP.unmap (ip : IP) : IP := (ip.to4.map .four).getD ip

def IP.isLoopback (ip : IP) : Bool :=
  match ip.unmap with
  | .four a => a >>> 24 = 127#32
  | .sixteen a => a = 1#128

def IP.isMulticast (ip : IP) : Bool :=
  match ip.unmap with
  | .four a => a >>> 28 = 0xe#32
  | .sixteen a => a >>> 120 = 0xff#128

def IP.isLinkLocalUnicast (ip : IP) : Bool :=
  match ip.unmap with
  | .four a => a >>> 16 = 0xa9fe#32
  | .sixteen a => a >>> 118 = 0x3fa#128

def IP.isLinkLocalMulticast (ip : IP) : Bool :=
  match ip.unmap with
  | .four a => a >>> 8 = 0xe00000#32
  | .sixteen a => (a >>> 112) &&& 0xff0f#128 = 0xff02#128

def validateIPAddress (addr : IP) : Except String Unit :=
  if addr.isLoopback then .error "loopback address range not allowed"
  else if addr.isMulticast then .error "multicast address range not allowed"
  else if addr.isLinkLocalUnicast || addr.isLinkLocalMulticast then
    .error "link-local address range not allowed"
  else .ok ()

def minNetworkBitsIPv4 : ℕ := 28
def minNetworkBitsIPv6 : ℕ := 120
def minRequiredAddresses : ℤ := 10

variable (p : Prefix)

def validateMinimumSize : Except String Unit :=
  if p.addr.is4 ∧ minNetworkBitsIPv4 < p.bits then
    .error s!"network range too small: minimum size is /{minNetworkBitsIPv4} for IPv4"
  else if ¬ p.addr.is4 ∧ minNetworkBitsIPv6 < p.bits then
    .error s!"network range too small: minimum size is /{minNetworkBitsIPv6} for IPv6"
  else .ok ()

/-- In 64 bits: negative for 63 host bits and 0 from 64 on. -/
def calculateMaxHosts : ℤ :=
  (1#64 <<< (p.addr.bitLen - p.bits)).toInt - if p.addr.is4 then 2 else 0

/-- Half of the peers are added (`PeerBufferPercentage`). -/
def calculateRequiredAddresses (peerCount : ℕ) : ℤ :=
  max (peerCount + peerCount / 2 : ℕ) minRequiredAddresses

def validateCapacity (peerCount : ℕ) : Except String Unit :=
  let maxHosts := calculateMaxHosts p
  let requiredAddresses := calculateRequiredAddresses peerCount
  if maxHosts < requiredAddresses then
    .error (s!"network range too small: need at least {requiredAddresses} addresses for " ++
      s!"{peerCount} peers + buffer, but range provides {maxHosts}")
  else .ok ()

/-- `validateNetworkRange`, for an account of that many peers. -/
def validateNetworkRange (peerCount : ℕ) : Except String Unit := do
  validateIPAddress p.addr
  validateMinimumSize p
  validateCapacity p peerCount

/-! ### Reallocation -/

def Prefix.newIPNet : IPNet :=
  let mask : IPMask := ⟨p.bits, p.addr.bitLen⟩
  ⟨(p.addr.masked mask).getD p.addr, mask⟩

/-- The loop over the peers, after `takenIPs` were given; a failure names the peer. -/
def reallocateFrom (n : IPNet) (draws : ℕ → ℕ → ℕ) :
    List IP → List String → Except (String × AllocError) (List IP)
  | takenIPs, [] => .ok takenIPs
  | takenIPs, peer :: peers =>
    match allocatePeerIP n (takenIPs.map some) (draws takenIPs.length) with
    | .error e => .error (peer, e)
    | .ok newIP => reallocateFrom n draws (takenIPs ++ [newIP]) peers

/-- `reallocateAccountPeerIPs`: the new addresses, in the order of the peers. -/
def reallocateAccountPeerIPs (draws : ℕ → ℕ → ℕ) (peers : List String) :
    Except (String × AllocError) (List IP) :=
  reallocateFrom p.newIPNet draws [] peers

/-- A host address of the network. As in `IPNet.Contains`, both are taken as IPv4 if they can
be, and one that can is never in the network of one that cannot. -/
def IPNet.HasHost (n : IPNet) (ip : IP) : Prop :=
  match n.ip.to4, ip.to4 with
  | some a, some x => IsHost (n.mask.bits - n.mask.ones) a x
  | none, none => ∃ a x, n.ip = .sixteen a ∧ ip = .sixteen x ∧
      IsHost (n.mask.bits - n.mask.ones) a x
  | _, _ => False

/-- Different addresses of the network for all peers. -/
def Sound (peers : List String) : Prop :=
  ∀ draws, ∃ ips, reallocateAccountPeerIPs p draws peers = .ok ips ∧ ips.length = peers.length ∧
    ips.Nodup ∧ ∀ ip ∈ ips, p.newIPNet.HasHost ip

/-- Given so far: different host addresses. -/
def Given (h : ℕ) (a : BitVec 32) (ips : List IP) : Prop :=
  ips.Nodup ∧ ∀ ip ∈ ips, ∃ x, ip = .four x ∧ IsHost h a x

theorem Represents.reallocateFrom_ok (hn : Represents n h a) (draws : ℕ → ℕ → ℕ)
    (peers : List String) {ips : List IP} (hips : Given h a ips)
    (hroom : ips.length + peers.length ≤ 2 ^ h - 2) :
    ∃ ips', reallocateFrom n draws ips peers = .ok ips' ∧
      ips'.length = ips.length + peers.length ∧ Given h a ips' := by
  induction peers generalizing ips with
  | nil => exact ⟨ips, rfl, rfl, hips⟩
  | cons peer peers ih =>
    rw [length_cons] at hroom
    rcases hn.allocate (ips.map some) (draws ips.length) with ⟨x, hok, hhost, hfree⟩ | ⟨-, hfull⟩
    · have hnew : IP.four x ∉ ips := by
        intro hmem
        exact hfree (mem_map.mpr ⟨some (.four x), mem_map_of_mem hmem, rfl⟩)
      have hnext : Given h a (ips ++ [.four x]) := by
        refine ⟨?_, forall_mem_append.mpr ⟨hips.2, forall_mem_singleton.mpr ⟨x, rfl, hhost⟩⟩⟩
        rw [← concat_eq_append]
        exact hips.1.concat hnew
      obtain ⟨ips', hrest, hlength, hgiven⟩ := ih hnext (by
        rw [length_append, length_singleton]
        omega)
      refine ⟨ips', ?_, ?_, hgiven⟩
      · rw [reallocateFrom, hok]
        exact hrest
      · rw [hlength, length_append, length_singleton, length_cons]
        omega
    · have hcount := length_le_of_all_taken hn.le hfull
      rw [length_map, length_map] at hcount
      omega

/-- Only addresses of 4 bytes are given. -/
theorem reallocateFrom_four {draws : ℕ → ℕ → ℕ} {peers : List String}
    {ips ips' : List IP} (hips : ∀ ip ∈ ips, ip.is4 = true)
    (hok : reallocateFrom n draws ips peers = .ok ips') : ∀ ip ∈ ips', ip.is4 = true := by
  induction peers generalizing ips with
  | nil =>
    obtain rfl := ok.inj hok
    exact hips
  | cons peer peers ih =>
    rw [reallocateFrom] at hok
    split at hok
    · exact nomatch hok
    · next newIP hnew =>
      refine ih (forall_mem_append.mpr ⟨hips, forall_mem_singleton.mpr ?_⟩) hok
      rw [allocatePeerIP, allocateOutside] at hnew
      split at hnew
      · exact nomatch hnew
      · rw [← ok.inj hnew]
        rfl
      · split at hnew
        · rw [← ok.inj hnew]
          rfl
        · exact nomatch hnew

/-! ### Which ranges the allocator can represent -/

theorem network_idem {w : ℕ} (h : ℕ) (a : BitVec w) : network h (network h a) = network h a := by
  rw [network, network, BitVec.and_assoc, BitVec.and_self]

/-- The last 32 of the 128 bits are masked as 32 bits are. -/
theorem setWidth_network (hh : h ≤ 32) (b : BitVec 128) :
    (network h b).setWidth 32 = network h (b.setWidth 32) := by
  have hmask : (hostMask 128 h).setWidth 32 = hostMask 32 h := by interval_cases h <;> rfl
  rw [network, network, BitVec.setWidth_and, hmask]

theorem represents_v4 (ha : n.ip.to4 = some a) (hbits : n.mask.bits = 32) :
    Represents n (32 - n.mask.ones) a := by
  obtain ⟨ip, ones, bits⟩ := n
  obtain rfl : bits = 32 := hbits
  refine ⟨rfl, sub_le _ _, ?_⟩
  cases ip with
  | four b =>
    obtain rfl := Option.some.inj ha
    rfl
  | sixteen b =>
    have hmasked : (IP.sixteen b).masked ⟨ones, 32⟩ =
        (IP.sixteen b).to4.map fun c => .four (network (32 - ones) c) := rfl
    rw [hmasked, show (IP.sixteen b).to4 = some a from ha]
    rfl

theorem represents_newIPNet {p : Prefix} (ha : p.newIPNet.ip.to4 = some a) :
    Represents p.newIPNet (p.addr.bitLen - p.bits) a := by
  obtain ⟨addr, bits, hle⟩ := p
  cases addr with
  | four b => exact represents_v4 ha rfl
  | sixteen b =>
    let h := 128 - bits
    -- the network address, again masked, is what it was
    have hip : (Prefix.newIPNet ⟨.sixteen b, bits, hle⟩).ip = .sixteen (network h b) := rfl
    have hagain : (IP.sixteen (network h b)).masked ⟨bits, 128⟩ = some (.sixteen (network h b)) :=
      congrArg (fun c => some (IP.sixteen c)) (network_idem h b)
    rw [hip, IP.to4] at ha
    split_ifs at ha with hmapped
    -- a mapped address has its bit 32 set, so that bit is not a host bit
    have hh : h ≤ 32 := by
      by_contra hlt
      have hbit := congrArg (·.getLsbD 0) hmapped
      simp [network, hostMask, show 32 < h by omega] at hbit
    have hlow : a = network h (b.setWidth 32) := by
      rw [← Option.some.inj ha, setWidth_network hh]
    refine ⟨rfl, hh, ?_⟩
    show ipToUint32 ((IP.sixteen (network h b)).masked ⟨bits, 128⟩) = network h a
    rw [hagain, hlow, network_idem, ipToUint32, Option.bind_some, IP.to4, if_pos hmapped,
      Option.getD_some, setWidth_network hh]

/-- There is room for all peers in an admitted range. -/
theorem room_of_valid {p : Prefix} {n : ℕ} (hvalid : validateNetworkRange p n = .ok ())
    (hh : p.addr.bitLen - p.bits ≤ 32) : n ≤ 2 ^ (p.addr.bitLen - p.bits) - 2 := by
  obtain ⟨addr, bits, hle⟩ := p
  obtain ⟨_, _, hrest⟩ := bind_eq_ok.mp hvalid
  obtain ⟨_, hsize, hcapacity⟩ := bind_eq_ok.mp hrest
  have hshift : ∀ h ≤ 32, (1#64 <<< h).toInt = ((2 ^ h : ℕ) : ℤ) := by
    intro h hh
    interval_cases h <;> rfl
  have henough : calculateRequiredAddresses n ≤ calculateMaxHosts ⟨addr, bits, hle⟩ := by
    rw [validateCapacity] at hcapacity
    split_ifs at hcapacity with hsmall
    exact not_lt.mp hsmall
  rw [calculateRequiredAddresses, calculateMaxHosts, hshift _ hh, max_le_iff] at henough
  have hpeers := henough.1
  generalize hpow : 2 ^ (addr.bitLen - bits) = hosts at hpeers ⊢
  cases addr with
  | four a =>
    rw [show (IP.four a).is4 = true from rfl, if_pos rfl] at hpeers
    omega
  | sixteen a =>
    -- nothing is reserved here, but half as many addresses again are required
    have hbits : bits ≤ 120 := by
      rw [validateMinimumSize] at hsize
      split_ifs at hsize with h4 h6
      exact not_lt.mp fun hlt => h6 ⟨Bool.false_ne_true, hlt⟩
    have hlarge : 2 ^ 8 ≤ 2 ^ (128 - bits) := Nat.pow_le_pow_right (by omega) (by omega)
    rw [show 2 ^ (128 - bits) = hosts from hpow] at hlarge
    omega

/-- **New addresses** are right for an admitted range, whatever the generator yields, exactly if
the range is one of IPv4 addresses or the account has no peers. In general `AllocatePeerIP`
gives a free host address of an IPv4 network, and fails exactly if all of them are taken. -/
theorem reallocate_sound_iff (p : Prefix) (peers : List String)
    (hvalid : validateNetworkRange p peers.length = .ok ()) :
    (Sound p peers ↔ peers = [] ∨ p.newIPNet.ip.to4.isSome = true) ∧
    ∀ (n : IPNet) (a : BitVec 32) (taken : List (Option IP)) (draws : ℕ → ℕ),
      n.ip.to4 = some a → n.mask.bits = 32 → n.mask.ones ≤ 32 →
        (∀ ip, allocatePeerIP n taken draws = .ok ip →
          n.HasHost ip ∧ ∀ t ∈ taken, t.bind IP.to4 ≠ ip.to4) ∧
        ((∃ e, allocatePeerIP n taken draws = .error e) ↔
          ∀ x, IsHost (32 - n.mask.ones) a x → some x ∈ taken.map (·.bind IP.to4)) := by
  refine ⟨⟨fun hsound => ?_, fun hcase => ?_⟩, fun n a taken draws ha hbits _ => ?_⟩
  · -- the allocator returns four bytes, which are in no range that is not IPv4
    obtain ⟨ips, hok, hlength, -, hhosts⟩ := hsound fun _ _ => 0
    rcases ips with _ | ⟨ip, ips⟩
    · exact .inl (length_eq_zero_iff.mp hlength.symm)
    · have hfour := reallocateFrom_four (by simp) hok ip mem_cons_self
      have hhost := hhosts ip mem_cons_self
      cases ip with
      | sixteen b => exact nomatch hfour
      | four x =>
        rw [IPNet.HasHost, IP.to4] at hhost
        rcases hto4 : p.newIPNet.ip.to4 with _ | a
        · simp only [hto4] at hhost
        · exact .inr rfl
  · intro draws
    rcases hcase with rfl | hsome
    · exact ⟨[], rfl, rfl, nodup_nil, by simp⟩
    · obtain ⟨a, ha⟩ := Option.isSome_iff_exists.mp hsome
      have hrep := represents_newIPNet ha
      have hroom := room_of_valid hvalid hrep.le
      obtain ⟨ips, hok, hlength, hnodup, hgiven⟩ := hrep.reallocateFrom_ok draws peers
        ⟨nodup_nil, by simp⟩ (by rwa [length_nil, zero_add])
      refine ⟨ips, hok, by rw [hlength, length_nil, zero_add], hnodup, fun ip hip => ?_⟩
      obtain ⟨x, rfl, hhost⟩ := hgiven ip hip
      rw [IPNet.HasHost, ha]
      exact hhost
  · have hrep := represents_v4 ha hbits
    rcases hrep.allocate taken draws with ⟨x, hok, hhost, hfree⟩ | ⟨herror, hfull⟩
    · constructor
      · intro ip hip
        obtain rfl := ok.inj (hok.symm.trans hip)
        refine ⟨?_, fun t ht heq => hfree ?_⟩
        · rw [IPNet.HasHost, ha, hbits]
          exact hhost
        · exact (hhost.mem_map_iff taken).mpr (mem_map.mpr ⟨t, ht, heq⟩)
      · refine ⟨fun ⟨e, he⟩ => (nomatch hok.symm.trans he), fun hall => ?_⟩
        exact absurd ((hhost.mem_map_iff taken).mpr (hall x hhost)) hfree
    · constructor
      · intro ip hip
        exact nomatch herror.symm.trans hip
      · exact ⟨fun _ x hx => (hx.mem_map_iff taken).mp (hfull x hx), fun _ => ⟨_, herror⟩⟩

/-- A range of IPv4 addresses with its host bits set. -/
def officeRange : Prefix := ⟨.four 0x0a0a0105#32, 24, by decide⟩

theorem officeRange_sound : Sound officeRange ["laptop", "server"] :=
  (reallocate_sound_iff officeRange ["laptop", "server"] (by decide)).1.mpr (.inr rfl)

/-- fd00::/100 is admitted for one peer, and the peer gets 0.0.0.1. -/
theorem ipv6_range_unsound :
    let p : Prefix := ⟨.sixteen (0xfd#128 <<< 120), 100, by decide⟩
    validateNetworkRange p 1 = .ok () ∧
      reallocateAccountPeerIPs p (fun _ _ => 0) ["laptop"] = .ok [.four 1#32] ∧
      ¬ p.newIPNet.HasHost (.four 1#32) := by
  refine ⟨by decide, by decide, ?_⟩
  exact fun hhost => hhost

end Netbird.Network
