import ObjectSync.Proofs.Entity.Setters

/-!
# Entries of a player

The quest log, the visible items and the skills of a player are kept in the same way: an entry is
several numbers in a row in an array (`EntryForm`). It is put together again from its numbers, and no
other setter writes to them (`EntryForm.Lawful`), so an entry is read as it was set last
(**`EntryForm.Lawful.read_called`**), as long as no plain operation has written there (`Spares`).
-/

namespace ObjectSync

/-! ## Forms of entries -/

/-- Entries of a type: the array that keeps them, the numbers that they are kept as, and what their
setter is given. -/
structure EntryForm (α : Type) where
  array : EntryArray
  values : α → List Value
  ofValues : List Value → α
  given? : Setter .player → Option (Nat × α)

namespace EntryForm

variable {α : Type}

/-- An entry is told by its numbers, and so is the entry that was never set. Its setter is the only
one for its field. -/
structure Lawful (form : EntryForm α) (zero : α) : Prop where
  length_values : ∀ a, (form.values a).length = form.array.width
  type_values : ∀ a, ∀ value ∈ form.values a, value.type = form.array.type
  ofValues_values : ∀ a, form.ofValues (form.values a) = a
  ofValues_zeros :
    form.ofValues (List.replicate form.array.width (form.array.type.read 0)) = zero
  writes_of_given : ∀ setter i a, form.given? setter = some (i, a) →
    setter.writes = form.array.writes i (form.values a)
  writes_of_other : ∀ setter, form.given? setter = none →
    ∀ write ∈ setter.writes, write.field ≠ form.array.field

/-- What the call gives to entry `i`. -/
def gives? (form : EntryForm α) (i : Nat) : Call .player → Option α
  | .set setter => (form.given? setter).bind fun given =>
    if given.1 < form.array.size ∧ given.1 = i then some given.2 else none
  | .plain _ => none

end EntryForm

/-- Two words as one number, the first of them low. -/
def joinWords (low high : UInt32) : UInt64 := low.toUInt64 ||| high.toUInt64 <<< 32

theorem toNat_joinWords (low high : UInt32) :
    (joinWords low high).toNat = high.toNat * 2 ^ 32 + low.toNat := by
  have hshift : (32 : UInt64).toNat % 64 = 32 := rfl
  have hroom : high.toNat <<< 32 < 2 ^ 64 := by
    have hlt := high.toNat_lt
    rw [Nat.shiftLeft_eq]
    omega
  rw [joinWords, UInt64.toNat_or, UInt64.toNat_shiftLeft, UInt32.toNat_toUInt64,
    UInt32.toNat_toUInt64, hshift, Nat.mod_eq_of_lt hroom, Nat.or_comm,
    ← Nat.shiftLeft_add_eq_or_of_lt low.toNat_lt, Nat.shiftLeft_eq]

theorem toNat_highWord (bits : UInt64) :
    (bits >>> 32).toUInt32.toNat = bits.toNat / 2 ^ 32 := by
  have hshift : (32 : UInt64).toNat % 64 = 32 := rfl
  have hlt := bits.toNat_lt
  rw [UInt64.toNat_toUInt32, UInt64.toNat_shiftRight, hshift, Nat.shiftRight_eq_div_pow]
  exact Nat.mod_eq_of_lt (by omega)

/-- A number is put together again from its halves. -/
theorem joinWords_halves (bits : UInt64) :
    joinWords bits.toUInt32 (bits >>> 32).toUInt32 = bits := by
  refine UInt64.toNat.inj ?_
  rw [toNat_joinWords, toNat_highWord, UInt64.toNat_toUInt32]
  omega

/-- What is put together from two words has them for its halves. -/
theorem low_joinWords (low high : UInt32) : (joinWords low high).toUInt32 = low := by
  have hlow := low.toNat_lt
  refine UInt32.toNat.inj ?_
  rw [UInt64.toNat_toUInt32, toNat_joinWords]
  omega

theorem high_joinWords (low high : UInt32) : (joinWords low high >>> 32).toUInt32 = high := by
  have hlow := low.toNat_lt
  refine UInt32.toNat.inj ?_
  rw [toNat_highWord, toNat_joinWords]
  omega

/-! ### The three forms -/

theorem EntryArray.field_of_mem_writes {array : EntryArray} {index : Nat} {values : List Value} :
    ∀ write ∈ array.writes index values, write.field = array.field := by
  intro write hwrite
  rw [writes] at hwrite
  split at hwrite
  · obtain ⟨item, _, rfl⟩ := List.mem_map.1 hwrite
    rfl
  · cases hwrite

/-- Entries of another array are written to another field. -/
theorem EntryArray.field_ne_of_mem_writes {array other : EntryArray} (h : other.field ≠ array.field)
    {index : Nat} {values : List Value} :
    ∀ write ∈ other.writes index values, write.field ≠ array.field :=
  fun write hwrite => field_of_mem_writes write hwrite ▸ h

/-- A property is not kept in a field of entries. -/
theorem Setter.field_ne_of_property {array : EntryArray} {kind : FieldKind} {block : Nat}
    (h : Part.Keeps array kind block) {way : Property}
    (listed : way ∈ Part.player.table.properties) (index : Nat) (value : Value) :
    ∀ write ∈ (property way listed index value).writes, write.field ≠ array.field := by
  intro write hwrite
  obtain rfl := List.mem_singleton.1 hwrite
  exact h.property_ne way listed

def Quest.form : EntryForm Quest where
  array := log
  values := values
  ofValues := ofValues
  given?
    | .quest index entry => some (index, entry)
    | _ => none

def VisibleItem.form : EntryForm VisibleItem where
  array := slots
  values := values
  ofValues := ofValues
  given?
    | .visibleItem index entry => some (index, entry)
    | _ => none

def Skill.form : EntryForm Skill where
  array := list
  values := values
  ofValues := ofValues
  given?
    | .skill index entry => some (index, entry)
    | _ => none

theorem Quest.lawful : form.Lawful {} where
  length_values _ := rfl
  type_values entry value hvalue := by
    simp only [form, values, List.mem_cons, List.not_mem_nil, or_false] at hvalue
    rcases hvalue with rfl | rfl | rfl | rfl | rfl <;> rfl
  ofValues_values entry := by
    show Quest.mk entry.id entry.state
      (joinWords entry.count.toUInt32 (entry.count >>> 32).toUInt32) entry.time = entry
    rw [joinWords_halves]
  ofValues_zeros := by decide
  writes_of_given setter i a h := by
    cases setter with
    | quest index entry => cases h; rfl
    | _ => cases h
  writes_of_other setter h := by
    cases setter with
    | quest => cases h
    | visibleItem => exact EntryArray.field_ne_of_mem_writes (by decide)
    | skill => exact EntryArray.field_ne_of_mem_writes (by decide)
    | property way listed => exact Setter.field_ne_of_property Part.keeps_log listed _ _

theorem VisibleItem.lawful : form.Lawful {} where
  length_values _ := rfl
  type_values entry value hvalue := by
    simp only [form, values, List.mem_cons, List.not_mem_nil, or_false] at hvalue
    rcases hvalue with rfl | rfl <;> rfl
  ofValues_values _ := rfl
  ofValues_zeros := by decide
  writes_of_given setter i a h := by
    cases setter with
    | visibleItem index entry => cases h; rfl
    | _ => cases h
  writes_of_other setter h := by
    cases setter with
    | visibleItem => cases h
    | quest => exact EntryArray.field_ne_of_mem_writes (by decide)
    | skill => exact EntryArray.field_ne_of_mem_writes (by decide)
    | property way listed => exact Setter.field_ne_of_property Part.keeps_slots listed _ _

theorem Skill.lawful : form.Lawful {} where
  length_values _ := rfl
  type_values entry value hvalue := by
    simp only [form, values, List.mem_cons, List.not_mem_nil, or_false] at hvalue
    rcases hvalue with rfl | rfl | rfl | rfl | rfl | rfl <;> rfl
  ofValues_values _ := rfl
  ofValues_zeros := by decide
  writes_of_given setter i a h := by
    cases setter with
    | skill index entry => cases h; rfl
    | _ => cases h
  writes_of_other setter h := by
    cases setter with
    | skill => cases h
    | quest => exact EntryArray.field_ne_of_mem_writes (by decide)
    | visibleItem => exact EntryArray.field_ne_of_mem_writes (by decide)
    | property way listed => exact Setter.field_ne_of_property Part.keeps_list listed _ _

/-! ## Reading entries -/

namespace EntryArray

variable {array : EntryArray} {values : List Value} {record : Record} {k i i' c : Nat}

/-- A getter in range reads the elements of its entry. -/
theorem read_eq (hk : record.schema.fieldNamed? array.field = some k) (hi : i < array.size) :
    array.read record i = (List.range array.width).map fun c =>
      array.type.read (record.bitsAt k (i * array.width + c)) := by
  rw [read, if_pos hi]
  refine List.map_congr_left fun c _ => ?_
  rw [Record.getNamed, hk]
  rfl

/-- Entries have no element in common. -/
theorem element_inj {width : Nat} (hc : c < width) {c' : Nat} (hc' : c' < width)
    (h : i' * width + c' = i * width + c) : i' = i ∧ c' = c := by
  have hdiv {i c : Nat} (hc : c < width) : (i * width + c) / width = i := by
    rw [Nat.mul_comm, Nat.mul_add_div (by omega), Nat.div_eq_of_lt hc, Nat.add_zero]
  have hsame : i' = i := by rw [← @hdiv i' c' hc', h, hdiv hc]
  subst hsame
  exact ⟨rfl, by omega⟩

/-- What a setter writes to an element of an entry is the number there, if it sets this entry. -/
theorem lastArg_writes (hlength : values.length = array.width) (hc : c < array.width) :
    lastArg (NamedWrite.at? array.field (i * array.width + c)) (array.writes i' values) =
      if i' < array.size ∧ i' = i then values[c]? else none := by
  rw [writes]
  by_cases hin : i' < array.size
  · rw [if_pos hin, lastArg_comp]
    by_cases hsame : i' = i
    · subst hsame
      rw [if_pos ⟨hin, rfl⟩, ← lastArg_zipIdx]
      refine lastArg_congr fun item _ => ?_
      simp [NamedWrite.at?]
    · -- the elements of another entry are not among those of this one
      rw [if_neg fun h => hsame h.2]
      refine lastArg_eq_none fun item hitem => ?_
      have hlt : item.2 < 0 + values.length := (List.mem_zipIdx hitem).2.1
      exact if_neg fun h => hsame (element_inj hc (by omega) h.2).1
  · rw [if_neg hin, if_neg fun h => hin h.1]
    rfl

end EntryArray

section Spares

variable {part : Part} {schema : Schema} {calls : List (Call part)} {field : String}
  {first count : Nat}

/-- No plain operation among the calls writes to these elements of a field. -/
def Spares (schema : Schema) (calls : List (Call part)) (field : String) (first count : Nat) :
    Prop :=
  ∀ k, schema.fieldNamed? field = some k → ∀ operation, .plain operation ∈ calls →
    ∀ index, first ≤ index → index < first + count → operation.written? k index = none

/-- A setter of other fields writes nothing to a field. -/
theorem Call.written?_of_ne {setter : Setter part}
    (h : ∀ write ∈ setter.writes, write.field ≠ field) (k index : Nat) :
    (Call.set setter).written? field k index = none :=
  lastArg_eq_none fun write hwrite => if_neg fun hsame => h write hwrite hsame.1

end Spares

namespace EntryForm

variable {α : Type} {form : EntryForm α} {zero : α} {settings : Settings} {schema : Schema}
  {kind : FieldKind} {block i : Nat} {calls : List (Call .player)}

/-- What a call writes to a number of an entry is that of the entry that it gives. -/
theorem Lawful.written?_eq (hform : form.Lawful zero) {k : Nat}
    (hk : schema.fieldNamed? form.array.field = some k)
    (hspares : Spares schema calls form.array.field (i * form.array.width) form.array.width)
    {call : Call .player} (hcall : call ∈ calls) {c : Nat} (hc : c < form.array.width) :
    call.written? form.array.field k (i * form.array.width + c) =
      (form.gives? i call).bind fun a => (form.values a)[c]? := by
  cases call with
  | plain operation =>
    exact hspares k hk operation hcall _ (Nat.le_add_right _ _) (Nat.add_lt_add_left hc _)
  | set setter =>
    rw [gives?]
    cases hgiven : form.given? setter with
    | none => exact Call.written?_of_ne (hform.writes_of_other setter hgiven) _ _
    | some given =>
      rw [Call.written?, hform.writes_of_given setter given.1 given.2 hgiven,
        EntryArray.lastArg_writes (hform.length_values given.2) hc, Option.bind_some]
      split <;> rfl

/-- An entry is read as it was set. -/
theorem Lawful.ofValues_bits (hform : form.Lawful zero) (a : α) :
    form.ofValues ((List.range form.array.width).map fun c =>
      form.array.type.read ((((form.values a)[c]?).map Value.bits).getD 0)) = a := by
  have hvalues : ((List.range form.array.width).map fun c =>
      form.array.type.read ((((form.values a)[c]?).map Value.bits).getD 0)) = form.values a := by
    refine List.ext_getElem ?_ fun c _ hc => ?_
    · rw [List.length_map, List.length_range, hform.length_values]
    · rw [List.getElem_map, List.getElem_range, List.getElem?_eq_getElem hc, Option.map_some,
        Option.getD_some, ← hform.type_values a _ (List.getElem_mem hc), ValueType.read_bits]
  rw [hvalues, hform.ofValues_values]

/-- An entry is the last one that was set in its place. -/
theorem Lawful.read_called (hform : form.Lawful zero)
    (hcompile : Schema.compile settings Part.player.name Part.player.fields = .ok schema)
    (hkeeps : Part.Keeps form.array kind block)
    (hspares : Spares schema calls form.array.field (i * form.array.width) form.array.width) :
    form.ofValues (form.array.read (Record.called schema calls) i) =
      (lastArg (form.gives? i) calls).getD zero := by
  obtain ⟨k, p, hlocates, -⟩ := Part.locates hcompile hkeeps.field?_eq hkeeps.isPadding_eq
  have hk := hlocates.fieldNamed?_eq
  by_cases hi : i < form.array.size
  · -- each number of the entry is that of the last entry given
    have hbits (c : Nat) (hc : c < form.array.width) :
        (Record.called schema calls).bitsAt k (i * form.array.width + c) =
          (((lastArg (form.gives? i) calls).bind fun a => (form.values a)[c]?).map
            Value.bits).getD 0 := by
      rw [Record.bitsAt_called hcompile hlocates (hkeeps.lt_lengthOf hi hc),
        lastArg_congr fun call hcall => hform.written?_eq hk hspares hcall hc, lastArg_bind]
      intro _ _ a _
      rw [List.getElem?_eq_getElem (by rw [hform.length_values]; exact hc)]
      rfl
    have hread : form.array.read (Record.called schema calls) i =
        (List.range form.array.width).map fun c => form.array.type.read
          ((((lastArg (form.gives? i) calls).bind fun a => (form.values a)[c]?).map
            Value.bits).getD 0) := by
      rw [EntryArray.read_eq ((Record.schema_called schema calls).symm ▸ hk) hi]
      refine List.map_congr_left fun c hc => ?_
      rw [hbits c (List.mem_range.1 hc)]
    rw [hread]
    cases lastArg (form.gives? i) calls with
    | none =>
      have hzeros : (List.range form.array.width).map (fun _ => form.array.type.read 0) =
          List.replicate form.array.width (form.array.type.read 0) := by
        rw [List.map_const', List.length_range]
      rw [Option.getD_none, ← hform.ofValues_zeros]
      exact congrArg form.ofValues hzeros
    | some a => exact hform.ofValues_bits a
  · have hnone : lastArg (form.gives? i) calls = none := by
      refine lastArg_eq_none fun call _ => ?_
      cases call with
      | plain => rfl
      | set setter =>
        refine Option.bind_eq_none_iff.2 fun given _ => if_neg ?_
        rintro ⟨hlt, hsame⟩
        exact hi (hsame ▸ hlt)
    rw [EntryArray.read, if_neg hi, hnone, hform.ofValues_zeros]
    rfl

end EntryForm

end ObjectSync
