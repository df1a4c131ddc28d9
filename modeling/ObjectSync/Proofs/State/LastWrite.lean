import ObjectSync.Proofs.Runs
import ObjectSync.Proofs.State.Changes

/-!
# The last write wins

A record is a map from the elements of its schema to their bits: reading an element gives what was
last written to it, whatever was done to the others, and a write to what the schema does not have
changes nothing (**`Record.lastWriteWins_reached`**). Between two messages only the order of the
writes to one element counts (`Record.foldl_step_congr`).

All elements are kept in one array of slots, so this rests on no two of them having a slot in common
(`Record.slot?_inj`). In a table with more elements than there are sizes two of them do
(`Record.not_lastWriteWins_of_wrap`).
-/

namespace ObjectSync.Record

/-! ## Slots -/

/-- The bits in a slot. -/
def slotBits (record : Record) (slot : Nat) : UInt64 := record.slots[slot]?.getD 0

section Slots

variable {record record' : Record} {k k' j j' slot : Nat}

/-- Which slot an element has is a matter of the schema. -/
theorem slot?_congr (h : record'.schema = record.schema) : record'.slot? k j = record.slot? k j := by
  rw [slot?, slot?, h]

/-- No two elements have a slot in common. -/
theorem slot?_inj (h : record.schema.Slotted) (hslot : record.slot? k j = some slot)
    (hslot' : record.slot? k' j' = some slot) : k' = k ∧ j' = j := by
  obtain ⟨p, hp, hnamed, hj, heq⟩ := (slot?_eq_some_iff_of_slotted h).1 hslot
  obtain ⟨p', hp', hnamed', hj', heq'⟩ := (slot?_eq_some_iff_of_slotted h).1 hslot'
  have hslots := Field.slots_of_named hnamed
  have hslots' := Field.slots_of_named hnamed'
  rcases Nat.lt_trichotomy k' k with hlt | rfl | hlt
  · have hbefore := h.before hp' hp hlt
    omega
  · cases hp.symm.trans hp'
    exact ⟨rfl, by omega⟩
  · have hbefore := h.before hp hp' hlt
    omega

/-- A write changes the slot of its element and no other. -/
theorem slotBits_setAt (hshaped : record.Shaped) (h : record.schema.Slotted)
    (hslot : record.slot? k j = some slot) (k' j' : Nat) (value : Value) :
    (record.setAt k' j' value).slotBits slot =
      if k' = k ∧ j' = j then value.bits else record.slotBits slot := by
  rw [setAt]
  cases hslot' : record.slot? k' j' with
  | none =>
    rw [if_neg]
    rintro ⟨rfl, rfl⟩
    rw [hslot] at hslot'
    cases hslot'
  | some slot' =>
    show (record.slots.setIfInBounds slot' value.bits)[slot]?.getD 0 = _
    by_cases hsame : k' = k ∧ j' = j
    · obtain ⟨rfl, rfl⟩ := hsame
      cases hslot.symm.trans hslot'
      rw [if_pos ⟨rfl, rfl⟩,
        Array.getElem?_setIfInBounds_self_of_lt (slot_lt_of_slotted hshaped h hslot),
        Option.getD_some]
    · have hne : slot' ≠ slot := by
        rintro rfl
        exact hsame (slot?_inj h hslot hslot')
      rw [if_neg hsame, Array.getElem?_setIfInBounds_ne hne]
      rfl

/-- A slot that no element has is never written. -/
theorem slotBits_setAt_of_forall_ne (hnone : ∀ k j, record.slot? k j ≠ some slot) (k' j' : Nat)
    (value : Value) : (record.setAt k' j' value).slotBits slot = record.slotBits slot := by
  rw [setAt]
  cases hslot' : record.slot? k' j' with
  | none => rfl
  | some slot' =>
    have hne : slot' ≠ slot := by
      rintro rfl
      exact hnone k' j' hslot'
    show (record.slots.setIfInBounds slot' value.bits)[slot]?.getD 0 = _
    rw [Array.getElem?_setIfInBounds_ne hne]
    rfl

end Slots

/-! ## Writes -/

/-- The value that the operation writes to the element. -/
def Step.written? (field index : Nat) : Step → Option Value
  | .edit (.set k value) => if k = field ∧ 0 = index then some value else none
  | .edit (.setAt k j value) => if k = field ∧ j = index then some value else none
  | .edit (.flagField _) | .flagName _ | .clearDirty | .takePart _ | .marshal _ => none

/-- The value that was last written to the element. -/
def lastWritten (field index : Nat) (steps : List Step) : Option Value :=
  lastArg (Step.written? field index) steps

section Runs

variable {record : Record} {k j slot : Nat}

theorem slotBits_step (hshaped : record.Shaped) (h : record.schema.Slotted)
    (hslot : record.slot? k j = some slot) (step : Step) :
    (record.step step).slotBits slot =
      ((step.written? k j).map Value.bits).getD (record.slotBits slot) := by
  have hsetAt (k' j' : Nat) (value : Value) : (record.setAt k' j' value).slotBits slot =
      (((Step.edit (.setAt k' j' value)).written? k j).map Value.bits).getD
        (record.slotBits slot) := by
    rw [slotBits_setAt hshaped h hslot, Step.written?]
    split <;> rfl
  cases step with
  | edit edit =>
    cases edit with
    | set field value => exact hsetAt field 0 value
    | setAt field index value => exact hsetAt field index value
    | flagField => rfl
  | _ => rfl

theorem slotBits_step_of_forall_ne (hnone : ∀ k j, record.slot? k j ≠ some slot) (step : Step) :
    (record.step step).slotBits slot = record.slotBits slot := by
  cases step with
  | edit edit =>
    cases edit with
    | set field value => exact slotBits_setAt_of_forall_ne hnone field 0 value
    | setAt field index value => exact slotBits_setAt_of_forall_ne hnone field index value
    | flagField => rfl
  | _ => rfl

/-- The slot of an element holds what was last written to the element. -/
theorem slotBits_foldl_step (hshaped : record.Shaped) (h : record.schema.Slotted)
    (hslot : record.slot? k j = some slot) (steps : List Step) :
    (steps.foldl step record).slotBits slot =
      ((lastWritten k j steps).map Value.bits).getD (record.slotBits slot) := by
  rw [lastWritten, ← lastArg_map]
  refine foldl_eq_lastArg_of (P := fun next => next.Shaped ∧ next.schema = record.schema)
    (slotBits · slot) ?_ ?_ ⟨hshaped, rfl⟩ steps
  · rintro next step ⟨hnext, hschema⟩
    exact ⟨hnext.step step, (schema_step step).trans hschema⟩
  · rintro next step ⟨hnext, hschema⟩
    exact slotBits_step hnext (hschema.symm ▸ h) ((slot?_congr hschema).trans hslot) step

theorem slotBits_foldl_step_of_forall_ne (hnone : ∀ k j, record.slot? k j ≠ some slot)
    (steps : List Step) : (steps.foldl step record).slotBits slot = record.slotBits slot := by
  induction steps generalizing record with
  | nil => rfl
  | cons step rest ih =>
    have hrest : ∀ k j, (record.step step).slot? k j ≠ some slot := fun k j =>
      (slot?_congr (schema_step step)).symm ▸ hnone k j
    rw [List.foldl_cons, ih hrest, slotBits_step_of_forall_ne hnone]

/-- Between two messages only the order of the writes to one element counts. -/
theorem foldl_step_congr {settings : Settings} {name : String} {table : List Field}
    (hcompile : Schema.compile settings name table = .ok record.schema)
    (h : record.schema.Slotted) (hshaped : record.Shaped) {steps steps' : List Step}
    (hkeeps : ∀ step ∈ steps, step.clears = false) (hperm : steps.Perm steps')
    (horder : ∀ k j, steps.filterMap (Step.written? k j) = steps'.filterMap (Step.written? k j)) :
    steps.foldl step record = steps'.foldl step record := by
  have hfold := hshaped.foldl_step steps
  have hfold' := hshaped.foldl_step steps'
  have hschema : (steps.foldl step record).schema = (steps'.foldl step record).schema := by
    rw [schema_foldl_step, schema_foldl_step]
  have hlast (k j : Nat) : lastWritten k j steps = lastWritten k j steps' := by
    rw [lastWritten, lastWritten, lastArg_eq_getLast?, lastArg_eq_getLast?, horder k j]
  -- every slot has the last value of its element, and a slot without an element what it had
  have hbits (slot : Nat) :
      (steps.foldl step record).slotBits slot = (steps'.foldl step record).slotBits slot := by
    by_cases hslot : ∃ k j, record.slot? k j = some slot
    · obtain ⟨k, j, hslot⟩ := hslot
      rw [slotBits_foldl_step hshaped h hslot, slotBits_foldl_step hshaped h hslot, hlast]
    · have hnone : ∀ k j, record.slot? k j ≠ some slot := fun k j hkj => hslot ⟨k, j, hkj⟩
      rw [slotBits_foldl_step_of_forall_ne hnone, slotBits_foldl_step_of_forall_ne hnone]
  have hslots : (steps.foldl step record).slots = (steps'.foldl step record).slots := by
    refine Array.ext (by rw [hfold.size_slots, hfold'.size_slots, hschema]) fun slot hs hs' => ?_
    have hslot := hbits slot
    rwa [slotBits, slotBits, Array.getElem?_eq_getElem hs, Array.getElem?_eq_getElem hs',
      Option.getD_some, Option.getD_some] at hslot
  -- a flag does not say which of the operations has set it
  have hdirty : (steps.foldl step record).dirty = (steps'.foldl step record).dirty := by
    refine hfold.dirty.ext (hschema ▸ hfold'.dirty) fun i => Bool.eq_iff_iff.2 ?_
    rw [holds_foldl_step hshaped hcompile hkeeps, holds_foldl_step hshaped hcompile
      fun step hstep => hkeeps step (hperm.mem_iff.2 hstep)]
    simp only [hperm.mem_iff]
  generalize steps.foldl step record = next at *
  generalize steps'.foldl step record = next' at *
  cases next
  cases next'
  cases hschema
  cases hslots
  cases hdirty
  rfl

end Runs

/-! ## Records -/

/-- Behind the run each element has the value that was last written to it. -/
structure LastWriteWins (schema : Schema) (steps : List Step) : Prop where
  /-- What the schema does not have is read as zero bits. -/
  getAt_eq : ∀ type k j, (reached schema steps).getAt type k j =
    type.read (if schema.hasElement k j then
      ((lastWritten k j steps).map Value.bits).getD 0 else 0)
  /-- A write to what the schema does not have changes no slot and no flag. -/
  ignored : ∀ k j value, schema.hasElement k j = false →
    (reached schema steps).setAt k j value = reached schema steps
  /-- A value is read back as the type that was written. -/
  read_back : ∀ k j value, schema.hasElement k j = true → lastWritten k j steps = some value →
    (reached schema steps).getAt value.type k j = value
  /-- Operations between two messages, the writes to each element kept in their order, may come in
  another order: nothing that comes behind them tells the difference. -/
  reordered : ∀ writes writes' after : List Step, (∀ step ∈ writes, step.clears = false) →
    writes.Perm writes' →
    (∀ k j, writes.filterMap (Step.written? k j) = writes'.filterMap (Step.written? k j)) →
    reached schema (steps ++ writes ++ after) = reached schema (steps ++ writes' ++ after)

variable {settings : Settings} {name : String} {table : List Field} {schema : Schema}

theorem bitsAt_reached (h : schema.Slotted) (steps : List Step) (k j : Nat) :
    (reached schema steps).bitsAt k j = if schema.hasElement k j then
      ((lastWritten k j steps).map Value.bits).getD 0 else 0 := by
  have hsome := isSome_slot? (reached schema steps) k j
  rw [schema_reached] at hsome
  rw [bitsAt, ← hsome]
  cases hslot : (reached schema steps).slot? k j with
  | none => rfl
  | some slot =>
    have hblank : (blank schema).slot? k j = some slot :=
      (slot?_congr (schema_reached schema steps).symm).trans hslot
    have hzero : (blank schema).slotBits slot = 0 := by
      rw [slotBits, blank, Array.getElem?_replicate]
      split <;> rfl
    have hbits := slotBits_foldl_step (Shaped.blank schema) h hblank steps
    rw [hzero] at hbits
    rw [Option.isSome_some, if_pos rfl]
    exact hbits

/-- A record is a map from the elements of its schema to the values last written to them. -/
theorem lastWriteWins_reached (hfits : FitsSlots table)
    (hcompile : Schema.compile settings name table = .ok schema) (steps : List Step) :
    LastWriteWins schema steps where
  getAt_eq type k j := congrArg type.read (bitsAt_reached (Schema.compile_slotted hfits hcompile)
    steps k j)
  ignored k j value hnone := by
    have hslot := isSome_slot? (reached schema steps) k j
    rw [schema_reached, hnone, Option.isSome_eq_false_iff, Option.isNone_iff_eq_none] at hslot
    rw [setAt, hslot]
  read_back k j value helement hlast := by
    rw [getAt, bitsAt_reached (Schema.compile_slotted hfits hcompile), helement, if_pos rfl, hlast]
    exact ValueType.read_bits value
  reordered writes writes' after hkeeps hperm horder := by
    have hschema := schema_reached schema steps
    have hsame := foldl_step_congr (hschema.symm ▸ hcompile)
      (hschema.symm ▸ Schema.compile_slotted hfits hcompile) (Shaped.reached schema steps)
      hkeeps hperm horder
    rw [reached, reached, List.foldl_append, List.foldl_append, List.foldl_append,
      List.foldl_append]
    exact congrArg (after.foldl step) hsame

/-- Two writes to one element, one that is ignored, and one to another element between two messages,
with the types mixed. -/
theorem lastWriteWins_reached_mixed :
    FitsSlots [.scalar "a" .u32, .padding .u16 1, .array "b" .i8 2] ∧ ∃ schema,
      Schema.compile {} "T" [.scalar "a" .u32, .padding .u16 1, .array "b" .i8 2] = .ok schema ∧
      LastWriteWins schema [.edit (.setAt 2 1 (.i8 (-1))), .edit (.set 0 (.f32 0x7FC00000)),
        .marshal true, .edit (.setAt 2 1 (.u64 300)), .edit (.set 1 (.u16 7))] := by
  obtain ⟨schema, hcompile⟩ : ∃ schema, Schema.compile {} "T"
      [.scalar "a" .u32, .padding .u16 1, .array "b" .i8 2] = .ok schema := ⟨_, rfl⟩
  have hfits : FitsSlots [.scalar "a" .u32, .padding .u16 1, .array "b" .i8 2] := by decide
  exact ⟨hfits, schema, hcompile, lastWriteWins_reached hfits hcompile _⟩

/-- In a table with more elements than there are sizes a write to the last element is read from the
first. -/
theorem not_lastWriteWins_of_wrap :
    ∃ schema, Schema.compile {} "T"
        [.scalar "a" .u32, .array "b" .u8 9223372036854775808,
          .array "c" .u8 9223372036854775808] = .ok schema ∧
      ¬LastWriteWins schema [.edit (.setAt 2 9223372036854775807 (.u32 7))] := by
  have hrun : (Schema.compile {} "T" [.scalar "a" .u32, .array "b" .u8 9223372036854775808,
      .array "c" .u8 9223372036854775808]).toOption.map (fun schema =>
        (reached schema [.edit (.setAt 2 9223372036854775807 (.u32 7))]).getAt .u32 0 0) =
      some (.u32 7) := by decide +kernel
  obtain ⟨schema, hcompile, hread⟩ := Schema.exists_of_compile hrun
  refine ⟨schema, hcompile, fun hwins => ?_⟩
  have hzero := hwins.getAt_eq .u32 0 0
  rw [hread, show lastWritten 0 0 [.edit (.setAt 2 9223372036854775807 (.u32 7))] = none from rfl,
    Option.map_none, Option.getD_none, ite_self] at hzero
  exact absurd hzero (by decide)

end ObjectSync.Record
