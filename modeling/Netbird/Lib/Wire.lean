/-
Big-endian words in byte slices, with the bounds checks of Go.

`binary.BigEndian.Uint16(b[i:i+2])` and `PutUint16(b[i:i+2], v)` stop the program when the slice
is out of range.  A write in range changes only the bytes it names, so what is read elsewhere, and
every part of the buffer beside it, stays as it was (`Agree`).
-/
import Netbird.Lib.Checked
import Netbird.Lib.Buffer

namespace Wire

open List

/-- `binary.BigEndian.Uint16(b[i:i+2])`, for bounds that were checked before. -/
def be16 (b : List UInt8) (i : ℕ) : UInt16 :=
  (b.getD i 0).toUInt16 <<< 8 ||| (b.getD (i + 1) 0).toUInt16

/-- The bytes that `binary.BigEndian.PutUint16` writes. -/
def bytes16 (v : UInt16) : List UInt8 :=
  [(v >>> 8).toUInt8, v.toUInt8]

variable (data : List UInt8)

/-- `binary.BigEndian.Uint16(data[i:i+2])`. -/
def getUint16 (i : ℕ) : Except Panic UInt16 :=
  if i + 2 ≤ data.length then .ok (be16 data i) else .error .sliceOutOfRange

def write (off : ℕ) (src : List UInt8) : Except Panic (List UInt8) :=
  if off + src.length ≤ data.length then .ok (Buffer.copyAt data off src)
  else .error .sliceOutOfRange

def setByte (i : ℕ) (b : UInt8) : Except Panic (List UInt8) :=
  if i < data.length then .ok (Buffer.copyAt data i [b]) else .error .indexOutOfRange

def putUint16 (i : ℕ) (v : UInt16) : Except Panic (List UInt8) :=
  write data i (bytes16 v)

/-- The sum of the words at the positions, in 32 bits. -/
def sumAt (positions : List ℕ) : Except Panic UInt32 :=
  positions.foldlM (fun sum i => do return sum + (← getUint16 data i).toUInt32) 0

/-- A word has the bytes that are written for it, as `simp` leaves them. -/
@[simp] theorem word_bytes (v : UInt16) : ((v >>> 8) % 256) <<< 8 ||| v % 256 = v := by
  have hv := v.toNat_lt
  have hlow : v.toNat % 256 < 2 ^ 8 := Nat.mod_lt _ (by decide)
  have hhigh : (v.toNat / 256 % 256) <<< 8 % 65536 = (v.toNat / 256) <<< 8 := by
    omega
  have hshift : (8 : UInt16).toNat % 16 = 8 := rfl
  have hmod : (256 : UInt16).toNat = 256 := rfl
  apply UInt16.toNat_inj.mp
  simp only [UInt16.toNat_or, UInt16.toNat_shiftLeft, UInt16.toNat_mod, UInt16.toNat_shiftRight,
    hshift, hmod, Nat.shiftRight_eq_div_pow]
  rw [hhigh, ← Nat.shiftLeft_add_eq_or_of_lt hlow]
  omega

variable {data data' : List UInt8}

theorem getUint16_eq_ok {i : ℕ} (h : i + 2 ≤ data.length) : getUint16 data i = .ok (be16 data i) :=
  if_pos h

variable {src : List UInt8}

theorem write_eq_ok {off : ℕ} (h : off + src.length ≤ data.length) :
    write data off src = .ok (Buffer.copyAt data off src) :=
  if_pos h

/-! ### What a write leaves alone -/

/-- The buffers are equally long and have the same bytes at the positions. -/
def Agree (p : ℕ → Prop) (a b : List UInt8) : Prop :=
  a.length = b.length ∧ ∀ i, p i → a[i]? = b[i]?

theorem Agree.refl (p : ℕ → Prop) (a : List UInt8) : Agree p a a :=
  ⟨rfl, fun _ _ => rfl⟩

variable {p : ℕ → Prop}

theorem Agree.symm {a b : List UInt8} (h : Agree p a b) : Agree p b a :=
  ⟨h.1.symm, fun i hi => (h.2 i hi).symm⟩

theorem Agree.trans {a b c : List UInt8} (h : Agree p a b) (h' : Agree p b c) : Agree p a c :=
  ⟨h.1.trans h'.1, fun i hi => (h.2 i hi).trans (h'.2 i hi)⟩

theorem Agree.mono {q : ℕ → Prop} {a b : List UInt8} (h : Agree p a b) (hqp : ∀ i, q i → p i) :
    Agree q a b :=
  ⟨h.1, fun i hi => h.2 i (hqp i hi)⟩

theorem Agree.getD {a b : List UInt8} (h : Agree p a b) {i : ℕ} (hi : p i) :
    a.getD i 0 = b.getD i 0 := by
  rw [getD_eq_getElem?_getD, getD_eq_getElem?_getD, h.2 i hi]

theorem Agree.be16 {a b : List UInt8} (h : Agree p a b) {i : ℕ} (hi : p i)
    (hi' : p (i + 1)) : be16 a i = be16 b i := by
  rw [Wire.be16, Wire.be16, h.getD hi, h.getD hi']

@[simp] theorem length_copyAt {off : ℕ} (h : off + src.length ≤ data.length) :
    (Buffer.copyAt data off src).length = data.length := by
  rw [Buffer.copyAt]
  simp only [length_append, length_take, length_drop]
  omega

theorem agree_copyAt {off : ℕ} (h : off + src.length ≤ data.length) :
    Agree (fun i => i < off ∨ off + src.length ≤ i) (Buffer.copyAt data off src) data := by
  refine ⟨length_copyAt h, fun i hi => ?_⟩
  have htake : src.take (data.length - off) = src := take_of_length_le (by omega)
  have hlen : (data.take off).length = off := by rw [length_take]; omega
  rw [Buffer.copyAt, htake, append_assoc]
  rcases hi with hi | hi
  · rw [getElem?_append_left (by omega), getElem?_take_of_lt hi]
  · rw [getElem?_append_right (by omega), hlen, getElem?_append_right (by omega),
      getElem?_drop]
    congr 1
    omega

end Wire
