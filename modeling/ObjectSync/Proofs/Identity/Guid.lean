import ObjectSync.Identity.Guid
import ObjectSync.Proofs.Bytes.Reader

/-!
# Reading packed identifiers

A packed identifier is read from its presence byte alone: `spread` takes one byte for each bit that
is set and puts a zero in for each that is not. `toNat_mask` says that the presence of eight bytes
fits its byte, and `Reads.guid` that every identifier arrives.
-/

namespace ObjectSync.Guid

/-- `count` bytes of an identifier: one for each of the low bits of `mask` that is set, zero for the
others. -/
def spread : Nat → Nat → Reader Bytes
  | 0, _ => pure []
  | count + 1, mask => do
    let octet ← if mask % 2 = 1 then Reader.u8 else pure 0
    let rest ← spread count (mask / 2)
    return octet :: rest

def reader : Reader Guid := do
  let mask ← Reader.u8
  let octets ← spread 8 mask.toNat
  return ⟨UInt64.ofNat (Bytes.ofLE octets)⟩

theorem presence_lt (bytes : Bytes) : presence bytes < 2 ^ bytes.length := by
  induction bytes with
  | nil => decide
  | cons b rest ih =>
    rw [presence, List.length_cons, Nat.pow_succ]
    split <;> omega

/-- The presence byte of an identifier is its presence. -/
theorem toNat_mask (g : Guid) :
    (UInt8.ofNat (presence g.octets)).toNat = presence g.octets := by
  have hlt := presence_lt g.octets
  rw [length_octets] at hlt
  rw [UInt8.toNat_ofNat', Nat.mod_eq_of_lt hlt]

/-- The bytes that are not zero are put back where the presence says they stood. -/
theorem spread_reads (bytes : Bytes) :
    Reads (spread bytes.length (presence bytes)) (bytes.filter (· ≠ 0)) bytes := by
  induction bytes with
  | nil => exact Reads.pure []
  | cons b rest ih =>
    by_cases hb : b = 0
    · -- a zero leaves no byte behind, only a bit that is clear
      subst hb
      have heven : presence (0 :: rest) % 2 = 0 := by rw [presence, if_pos rfl]; omega
      have hhalf : presence (0 :: rest) / 2 = presence rest := by rw [presence, if_pos rfl]; omega
      have hkept : (0 :: rest).filter (· ≠ 0) = [] ++ rest.filter (· ≠ 0) := by simp
      rw [hkept, List.length_cons, spread, heven, hhalf, if_neg (by decide)]
      exact (Reads.pure 0).bind (ih.last (0 :: ·))
    · have hodd : presence (b :: rest) % 2 = 1 := by rw [presence, if_neg hb]; omega
      have hhalf : presence (b :: rest) / 2 = presence rest := by rw [presence, if_neg hb]; omega
      have hkept : (b :: rest).filter (· ≠ 0) = Bytes.u8 b ++ rest.filter (· ≠ 0) := by
        simp [hb, Bytes.u8]
      rw [hkept, List.length_cons, spread, hodd, hhalf, if_pos rfl]
      exact (Reads.u8 b).bind (ih.last (b :: ·))

/-- The octets of an identifier spell it. -/
theorem ofLE_octets (g : Guid) : UInt64.ofNat (Bytes.ofLE g.octets) = g.raw := by
  rw [octets, Bytes.u64, Bytes.ofLE_le, Nat.one_shiftLeft, Nat.mod_eq_of_lt g.raw.toNat_lt,
    UInt64.ofNat_toNat]

end Guid

/-- A packed identifier arrives, whatever bytes of it are zero. -/
theorem Reads.guid (g : Guid) : Reads Guid.reader g.packed g := by
  have hspread := Guid.spread_reads g.octets
  rw [Guid.length_octets, ← g.toNat_mask] at hspread
  have hlast := hspread.last fun octets => (⟨UInt64.ofNat (Bytes.ofLE octets)⟩ : Guid)
  rw [Guid.ofLE_octets] at hlast
  show Reads _ (Bytes.u8 _ ++ _) g
  exact (Reads.u8 _).bind hlast

end ObjectSync
