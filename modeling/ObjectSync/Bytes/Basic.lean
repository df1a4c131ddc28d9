/-!
# Bytes and their little-endian integers

A message is a list of bytes. Every integer in it is little-endian, and every width goes through
one encoder: `le width n` is the `width` low bytes of `n`, least significant first, and `ofLE` reads
such bytes back. `ofLE_le` says that nothing but the bits above the width is lost, `le_ofLE` that
the bytes of a number determine it.
-/

namespace ObjectSync

/-- Raw message bytes, in the order in which they are sent. -/
abbrev Bytes := List UInt8

namespace Bytes

/-- The `width` low bytes of `n`, least significant first. Bits above `8 * width` are dropped. -/
def le : Nat → Nat → Bytes
  | 0, _ => []
  | width + 1, n => UInt8.ofNat n :: le width (n / 256)

/-- The number with the given little-endian bytes. -/
def ofLE : Bytes → Nat
  | [] => 0
  | b :: rest => b.toNat + 256 * ofLE rest

def u8 (v : UInt8) : Bytes := [v]

def u16 (v : UInt16) : Bytes := le 2 v.toNat

def u32 (v : UInt32) : Bytes := le 4 v.toNat

/-- The low 48 bits of a 64-bit integer. -/
def u48 (v : UInt64) : Bytes := le 6 v.toNat

def u64 (v : UInt64) : Bytes := le 8 v.toNat

/-- The bytes of a part that may be missing. -/
def optional {α : Type} (encode : α → Bytes) : Option α → Bytes
  | some part => encode part
  | none => []

/-! ## Laws of the encoder -/

@[simp] theorem length_le (width n : Nat) : (le width n).length = width := by
  induction width generalizing n with
  | zero => rfl
  | succ width ih => simp [le, ih]

theorem ofLE_le (width n : Nat) : ofLE (le width n) = n % (1 <<< (8 * width)) := by
  induction width generalizing n with
  | zero => simp [le, ofLE, Nat.mod_one]
  | succ width ih =>
    have low : (UInt8.ofNat n).toNat = n % 256 := UInt8.toNat_ofNat'
    have step : 1 <<< (8 * (width + 1)) = 256 * (1 <<< (8 * width)) := by
      rw [Nat.one_shiftLeft, Nat.one_shiftLeft, Nat.mul_succ, Nat.pow_add, Nat.mul_comm]
    rw [le, ofLE, ih, low, step, Nat.mod_mul]

theorem le_ofLE (bytes : Bytes) : le bytes.length (ofLE bytes) = bytes := by
  induction bytes with
  | nil => rfl
  | cons b rest ih =>
    have hb : b.toNat < 256 := b.toNat_lt
    have hlow : UInt8.ofNat (b.toNat + 256 * ofLE rest) = b := by
      apply UInt8.toNat_inj.mp
      rw [UInt8.toNat_ofNat']
      omega
    have hrest : (b.toNat + 256 * ofLE rest) / 256 = ofLE rest := by omega
    rw [List.length_cons, ofLE, le, hlow, hrest, ih]

end Bytes

end ObjectSync
