import ObjectSync.Message
import ObjectSync.Proofs.Motion.Reading
import ObjectSync.Proofs.State.Parts

/-!
# Reading update messages

No update says how long it is, so a message can only be read if each part of an update can be told
from what follows it: identifiers by their presence byte, movement by its flags, values by their
mask, and lists by their count. The readers here look at nothing else.

**`Batch.reader_run_bytes`** says that every message is read back, as far as its counts may announce
it (`Batch.sent`), and that nothing is left over. What it asks for is that the movement was made by
operations, and that the values are a values block; what a record sends is one
(`Record.Sound.encoded_marshal`), and so is what several records send together
(`Layout.encoded_marshal`).
-/

namespace ObjectSync

/-! ## Updates -/

def ObjectType.reader : Reader ObjectType := do
  let code ← Reader.u8
  (ofCode? code.toNat : Option ObjectType)

theorem Reads.objectType (t : ObjectType) :
    Reads ObjectType.reader (Bytes.u8 (UInt8.ofNat t.code)) t := by
  cases t <;> exact fun _ => rfl

namespace Update

def appearedReader (spawned : Bool) : Reader Update := do
  let guid ← Guid.reader
  let type ← ObjectType.reader
  let movement ← Movement.reader
  let values ← ValuesBlock.bytesReader
  return appeared guid type movement values spawned

/-- What stands behind the first byte. -/
def bodyReader : Nat → Reader Update
  | 0 => do
    let guid ← Guid.reader
    let values ← ValuesBlock.bytesReader
    return valuesChanged guid values
  | 1 => do
    let guid ← Guid.reader
    let movement ← Movement.reader
    return moved guid movement
  | 2 => appearedReader false
  | 3 => appearedReader true
  | 4 => leftView <$> Guid.reader.counted
  | 5 => nearby <$> Guid.reader.counted
  | _ => failure

def reader : Reader Update := do
  let code ← Reader.u8
  bodyReader code.toNat

/-- The update as its receiver has it. -/
def sent : Update → Update
  | valuesChanged guid values => valuesChanged guid values
  | moved guid movement => moved guid movement.sent
  | appeared guid type movement values spawned =>
    appeared guid type movement.sent values spawned
  | leftView guids => leftView (guids.take Bytes.longest)
  | nearby guids => nearby (guids.take Bytes.longest)

/-- Movement is made by operations, and values are a values block. -/
def Sendable : Update → Prop
  | valuesChanged _ values => ValuesBlock.Encoded values
  | moved _ movement => ∃ living operations, movement = .build living operations
  | appeared _ _ movement values _ =>
    (∃ living operations, movement = .build living operations) ∧ ValuesBlock.Encoded values
  | leftView _ | nearby _ => True

theorem reads_appeared (guid : Guid) (type : ObjectType) {movement : Movement} {values : Bytes}
    (hmovement : Reads Movement.reader movement.bytes.value movement.sent)
    (hvalues : ValuesBlock.Encoded values) (spawned : Bool) :
    Reads (appearedReader spawned) (appeared guid type movement values spawned).body.value
      (appeared guid type movement.sent values spawned) := by
  have hbody : (appeared guid type movement values spawned).body.value =
      guid.packed ++ (Bytes.u8 (UInt8.ofNat type.code) ++ (movement.bytes.value ++ values)) := by
    simp [body]
  rw [hbody]
  exact (Reads.guid guid).bind <| (Reads.objectType type).bind <|
    hmovement.bind <| hvalues.reads.last _

theorem reads_bytes {u : Update} (h : u.Sendable) : Reads reader u.bytes.value u.sent := by
  have hguids (guids : List Guid) :
      Reads Guid.reader.counted (guidBytes guids).value (guids.take Bytes.longest) :=
    Reads.counted fun guid _ => Reads.guid guid
  refine Reads.bind (Reads.u8 u.code) ?_
  cases u with
  | valuesChanged guid values => exact (Reads.guid guid).bind <| h.reads.last _
  | moved guid movement =>
    obtain ⟨living, operations, rfl⟩ := h
    exact (Reads.guid guid).bind <| (Movement.reads_build living operations).last _
  | appeared guid type movement values spawned =>
    obtain ⟨⟨living, operations, rfl⟩, hvalues⟩ := h
    have happeared := reads_appeared guid type (Movement.reads_build living operations) hvalues
      spawned
    cases spawned with
    | true => exact happeared
    | false => exact happeared
  | leftView guids => exact (hguids guids).map leftView
  | nearby guids => exact (hguids guids).map nearby

end Update

/-! ## Messages -/

namespace Batch

def reader : Reader Batch := Batch.mk <$> Update.reader.counted

/-- The message as its receiver has it. -/
def sent (b : Batch) : Batch := { updates := (b.updates.take Bytes.longest).map Update.sent }

/-- A message is read back from its bytes alone, up to the last of them, and each count in it is
the number of what follows. -/
theorem reader_run_bytes (b : Batch) (h : ∀ u ∈ b.updates, u.Sendable) (rest : Bytes) :
    reader.run (b.bytes.value ++ rest) = some (b.sent, rest) ∧
      b.bytes.value = Bytes.u32 (UInt32.ofNat b.sent.updates.length)
        ++ (b.updates.take Bytes.longest).flatMap (·.bytes.value) ∧
      ∀ guids : List Guid, (Update.guidBytes guids).value =
        Bytes.u32 (UInt32.ofNat (guids.take Bytes.longest).length)
          ++ (guids.take Bytes.longest).flatMap Guid.packed := by
  have hupdates : Reads Update.reader.counted b.bytes.value b.sent.updates :=
    Reads.counted_map fun u hu => Update.reads_bytes (h u hu)
  refine ⟨hupdates.map Batch.mk rest, ?_, fun guids => Bytes.value_counted _ guids⟩
  rw [sent, List.length_map]
  exact Bytes.value_counted Update.bytes b.updates

/-- A swimming unit is spawned, a composite changes, and two objects leave view. -/
theorem reader_run_bytes_spawned :
    ∃ schema layout, Schema.compile {} "T" [.scalar "a" .u32, .scalar "b" .u64] = .ok schema ∧
      Layout.ofSchemas {} "Both" [schema, schema] = .ok layout ∧
      let record := Record.reached schema [.edit (.set 1 (.u64 9))]
      let batch : Batch := { updates := [
        .appeared ⟨65538⟩ .unit
          (.build (some ({}, [.setSwimming (some 7)])) [.setRotation (some 5)])
          (record.marshal false).value.1 true,
        .valuesChanged ⟨65538⟩ (layout.marshal [record, record] true).value.1,
        .leftView [⟨65538⟩, ⟨65539⟩]] }
      (∀ u ∈ batch.updates, u.Sendable) ∧
        reader.run (batch.bytes.value ++ [1, 2]) = some (batch.sent, [1, 2]) := by
  obtain ⟨schema, layout, hcompile, hlayout⟩ : ∃ schema layout, Schema.compile {} "T"
      [.scalar "a" .u32, .scalar "b" .u64] = .ok schema ∧
      Layout.ofSchemas {} "Both" [schema, schema] = .ok layout := ⟨_, _, rfl, rfl⟩
  have hfits : FitsSize [.scalar "a" .u32, .scalar "b" .u64] := by decide
  have hsound := Record.sound_reached hfits hcompile [.edit (.set 1 (.u64 9))]
  have hmask : layout.Fits := Layout.Accepted.fits (.several hlayout)
  refine ⟨schema, layout, hcompile, hlayout, ?_⟩
  intro record batch
  have hsendable : ∀ u ∈ batch.updates, u.Sendable := by
    intro u hu
    simp only [batch, List.mem_cons, List.not_mem_nil, or_false] at hu
    rcases hu with rfl | rfl | rfl
    · exact ⟨⟨_, _, rfl⟩, hsound.encoded_marshal false⟩
    · exact Layout.encoded_marshal hmask (by simpa [record] using hsound) true
    · trivial
  exact ⟨hsendable, (reader_run_bytes batch hsendable [1, 2]).1⟩

end Batch

end ObjectSync
