import Mathlib.Algebra.Ring.Nat
import ObjectSync.Bytes.Counted

/-!
# Readers

The receiving side of the wire format. A `Reader` takes a value off the front of a message and hands
on the bytes behind it. `Reads reader bytes a` says that it takes exactly `bytes` and gives `a`,
whatever follows; so the reader of a message is put together from those of its fields, and the facts
about them are put together in the same way (`Reads.bind`, `Reads.times`, `Reads.gated`).
-/

namespace ObjectSync

/-- Takes a value off the front of the bytes, or fails. -/
abbrev Reader := StateT Bytes Option

namespace Reader

variable {α : Type}

/-- The first `n` bytes. -/
def bytes (n : Nat) : Reader Bytes := fun input =>
  if n ≤ input.length then some (input.take n, input.drop n) else none

/-- The little-endian number in the first `width` bytes. -/
def number (width : Nat) : Reader Nat := Bytes.ofLE <$> bytes width

def u8 : Reader UInt8 := UInt8.ofNat <$> number 1

def u16 : Reader UInt16 := UInt16.ofNat <$> number 2

def u32 : Reader UInt32 := UInt32.ofNat <$> number 4

def u48 : Reader UInt64 := UInt64.ofNat <$> number 6

def u64 : Reader UInt64 := UInt64.ofNat <$> number 8

/-- `n` values, one behind the other. -/
def times (reader : Reader α) : Nat → Reader (List α)
  | 0 => pure []
  | n + 1 => do
    let a ← reader
    let rest ← times reader n
    return a :: rest

/-- A value that is only there when it was announced. -/
def gated (reader : Reader α) (announced : Bool) : Reader (Option α) :=
  if announced then some <$> reader else pure none

/-- The count of a list, then its items. -/
def counted (reader : Reader α) : Reader (List α) := do
  let n ← u32
  times reader n.toNat

end Reader

/-- The count of a list is the number of items that follow it. -/
theorem Bytes.value_counted {α : Type} (encode : α → Logged Bytes) (items : List α) :
    (counted encode items).value =
      u32 (UInt32.ofNat (items.take longest).length)
        ++ (items.take longest).flatMap fun a => (encode a).value := by
  rw [List.length_take, Nat.min_comm]
  simp only [counted, count, Logged.value_append, Logged.value_flatten,
    List.map_map, List.flatMap_def]
  rfl

/-- The reader takes exactly `bytes` off the front of a message and gives `a`. -/
def Reads {α : Type} (reader : Reader α) (bytes : Bytes) (a : α) : Prop :=
  ∀ rest, reader.run (bytes ++ rest) = some (a, rest)

namespace Reads

variable {α β : Type}

/-! ## Putting readers together -/

theorem pure (a : α) : Reads (Pure.pure a) [] a := fun _ => rfl

theorem bind {reader : Reader α} {next : α → Reader β} {bytes bytes' : Bytes} {a : α} {b : β}
    (h : Reads reader bytes a) (h' : Reads (next a) bytes' b) :
    Reads (reader >>= next) (bytes ++ bytes') b := by
  intro rest
  rw [StateT.run_bind, List.append_assoc, h (bytes' ++ rest)]
  exact h' rest

theorem map {reader : Reader α} {bytes : Bytes} {a : α} (f : α → β) (h : Reads reader bytes a) :
    Reads (f <$> reader) bytes (f a) := by
  intro rest
  rw [StateT.run_map, h rest]
  rfl

/-- The last field of a message, with what is made of it. -/
theorem last {reader : Reader α} {bytes : Bytes} {a : α} (f : α → β) (h : Reads reader bytes a) :
    Reads (reader >>= fun a => Pure.pure (f a)) bytes (f a) := by
  have h' : Reads (reader >>= fun a => Pure.pure (f a)) (bytes ++ []) (f a) := h.bind (pure (f a))
  rwa [List.append_nil] at h'

theorem gated {reader : Reader α} {encode : α → Bytes} {announced : Bool} {a? : Option α}
    (h : ∀ a, a? = some a → Reads reader (encode a) a) (ha : announced = a?.isSome) :
    Reads (reader.gated announced) (Bytes.optional encode a?) a? := by
  subst ha
  cases a? with
  | none => exact pure none
  | some a => exact (h a rfl).map some

/-- Items that arrive one by one, each as `f` says, arrive together. -/
theorem times_map {reader : Reader β} {encode : α → Bytes} {f : α → β} {items : List α}
    (h : ∀ a ∈ items, Reads reader (encode a) (f a)) :
    Reads (reader.times items.length) (items.flatMap encode) (items.map f) := by
  induction items with
  | nil => exact pure []
  | cons a items ih =>
    have hrest := ih fun a' ha' => h a' (List.mem_cons_of_mem a ha')
    exact (h a List.mem_cons_self).bind (hrest.last (f a :: ·))

theorem times {reader : Reader α} {encode : α → Bytes} {items : List α}
    (h : ∀ a ∈ items, Reads reader (encode a) a) :
    Reads (reader.times items.length) (items.flatMap encode) items := by
  have hitems := times_map (f := id) h
  rwa [List.map_id] at hitems

/-! ## Integers -/

theorem bytes (b : Bytes) : Reads (Reader.bytes b.length) b b := by
  intro rest
  show (if b.length ≤ (b ++ rest).length then _ else _) = some (b, rest)
  rw [if_pos (by rw [List.length_append]; omega), List.take_left, List.drop_left]

theorem number (width n : Nat) :
    Reads (Reader.number width) (Bytes.le width n) (n % 2 ^ (8 * width)) := by
  have h := (Reads.bytes (Bytes.le width n)).map Bytes.ofLE
  rwa [Bytes.length_le, Bytes.ofLE_le, Nat.one_shiftLeft] at h

theorem u8 (v : UInt8) : Reads Reader.u8 (Bytes.u8 v) v := by
  have h := (number 1 v.toNat).map UInt8.ofNat
  rwa [Nat.mod_eq_of_lt v.toNat_lt, UInt8.ofNat_toNat, Bytes.le, UInt8.ofNat_toNat] at h

theorem u16 (v : UInt16) : Reads Reader.u16 (Bytes.u16 v) v := by
  have h := (number 2 v.toNat).map UInt16.ofNat
  rwa [Nat.mod_eq_of_lt v.toNat_lt, UInt16.ofNat_toNat] at h

theorem u32 (v : UInt32) : Reads Reader.u32 (Bytes.u32 v) v := by
  have h := (number 4 v.toNat).map UInt32.ofNat
  rwa [Nat.mod_eq_of_lt v.toNat_lt, UInt32.ofNat_toNat] at h

/-- Of a 64-bit integer sent in 48 bits, the low 48 arrive. -/
theorem u48 (v : UInt64) : Reads Reader.u48 (Bytes.u48 v) (UInt64.ofNat (v.toNat % 2 ^ 48)) :=
  (number 6 v.toNat).map UInt64.ofNat

theorem u64 (v : UInt64) : Reads Reader.u64 (Bytes.u64 v) v := by
  have h := (number 8 v.toNat).map UInt64.ofNat
  rwa [Nat.mod_eq_of_lt v.toNat_lt, UInt64.ofNat_toNat] at h

/-! ## Counted lists -/

/-- Of a list, the items that its count may announce arrive. -/
theorem counted_map {reader : Reader β} {encode : α → Logged Bytes} {f : α → β} {items : List α}
    (h : ∀ a ∈ items, Reads reader (encode a).value (f a)) :
    Reads reader.counted (Bytes.counted encode items).value
      ((items.take Bytes.longest).map f) := by
  have hcount : (UInt32.ofNat (items.take Bytes.longest).length).toNat =
      (items.take Bytes.longest).length := by
    rw [UInt32.toNat_ofNat', List.length_take, Bytes.longest]
    omega
  have hitems : Reads (reader.times (UInt32.ofNat (items.take Bytes.longest).length).toNat)
      ((items.take Bytes.longest).flatMap fun a => (encode a).value)
      ((items.take Bytes.longest).map f) := by
    rw [hcount]
    exact times_map fun a ha => h a (List.mem_of_mem_take ha)
  rw [Bytes.value_counted]
  exact (u32 _).bind hitems

theorem counted {reader : Reader α} {encode : α → Bytes} {items : List α}
    (h : ∀ a ∈ items, Reads reader (encode a) a) :
    Reads reader.counted (Bytes.counted (fun a => Pure.pure (encode a)) items).value
      (items.take Bytes.longest) := by
  have hitems : Reads reader.counted
      (Bytes.counted (fun a => Pure.pure (encode a)) items).value
      ((items.take Bytes.longest).map id) := counted_map h
  rwa [List.map_id] at hitems

end Reads

end ObjectSync
