import ObjectSync.Proofs.Entity.Entries
import ObjectSync.Proofs.State.Words

/-!
# Typed access

What a typed getter of a player or of a unit reads is what was last given to its setter in range,
and zeros where there was none. A setter out of range does nothing, one in range flags the section of
its field, and a player that is sent as a whole has each of its entries in words of its own.

**`Record.typed_called`** says so of every run of typed calls and plain operations. Where a plain
operation has written to the elements of an entry or of a number, it says nothing of these.
-/

namespace ObjectSync

/-! ## Numbers of a unit -/

/-- What the call gives to number `i` of a family. -/
def Call.member? (family : UnitFamily) (i : Nat) : Call .unit → Option UInt32
  | .set (.member family' index value) =>
    if index < family'.fields.length ∧ family' = family ∧ index = i then some value else none
  | _ => none

section Members

variable {settings : Settings} {schema : Schema} {name : String} {family : UnitFamily} {i k : Nat}
  {calls : List (Call .unit)}

/-- What a call writes to a numbered field is what it gives to the number. -/
theorem Call.written?_member (hname : family.fields[i]? = some name)
    (hk : schema.fieldNamed? name = some k) (hspares : Spares schema calls name 0 1)
    {call : Call .unit} (hcall : call ∈ calls) :
    call.written? name k 0 = (call.member? family i).map Value.u32 := by
  cases call with
  | plain operation => exact hspares k hk operation hcall 0 (Nat.le_refl 0) (by decide)
  | set setter =>
    cases setter with
    | member family' index value =>
      rw [written?, member?, Setter.writes]
      cases hname' : family'.fields[index]? with
      | none =>
        have hle := List.getElem?_eq_none_iff.1 hname'
        rw [if_neg fun h => Nat.not_lt.2 hle h.1]
        rfl
      | some name' =>
        have hlt := (List.getElem?_eq_some_iff.1 hname').1
        by_cases hsame : family' = family ∧ index = i
        · obtain ⟨rfl, rfl⟩ := hsame
          cases hname.symm.trans hname'
          rw [if_pos ⟨hlt, rfl, rfl⟩]
          exact (lastArg_concat _ [] _).trans (congrArg (Option.or · none) (if_pos ⟨rfl, rfl⟩))
        · -- another number has a field of its own
          have hne : name' ≠ name := by
            rintro rfl
            exact hsame (Part.member_inj hname hname')
          rw [if_neg fun h => hsame h.2]
          refine lastArg_eq_none fun write hwrite => if_neg fun h => hne ?_
          obtain rfl := List.mem_singleton.1 hwrite
          exact h.1
    | property way listed index value =>
      refine written?_of_ne (fun write hwrite => ?_) k 0
      obtain rfl := List.mem_singleton.1 hwrite
      rintro rfl
      exact (Part.numbers family).property_ne way listed (List.mem_of_getElem? hname)

/-- A number is the last one that was set in its place. -/
theorem UnitFamily.read_called
    (hcompile : Schema.compile settings Part.unit.name Part.unit.fields = .ok schema)
    (hspares : ∀ name, family.fields[i]? = some name → Spares schema calls name 0 1) :
    family.read (Record.called schema calls) i =
      .u32 ((lastArg (Call.member? family i) calls).getD 0) := by
  cases hname : family.fields[i]? with
  | none =>
    have hle := List.getElem?_eq_none_iff.1 hname
    have hnone : lastArg (Call.member? family i) calls = none := by
      refine lastArg_eq_none fun call _ => ?_
      cases call with
      | plain => rfl
      | set setter =>
        cases setter with
        | member family' index value =>
          refine if_neg ?_
          rintro ⟨hlt, rfl, rfl⟩
          omega
        | property => rfl
    rw [read, hname, hnone]
    rfl
  | some name =>
    have hmem := List.mem_of_getElem? hname
    obtain ⟨k, p, hlocates, -⟩ := Part.locates hcompile ((Part.numbers family).field?_eq name hmem)
      ((Part.numbers family).isPadding_eq name hmem)
    have hk := hlocates.fieldNamed?_eq
    have hlength : 0 < Part.unit.lengthOf name := Part.lengthOf_of_mem hmem ▸ Nat.one_pos
    have hbits : (Record.called schema calls).bitsAt k 0 =
        (((lastArg (Call.member? family i) calls).map Value.u32).map Value.bits).getD 0 := by
      rw [Record.bitsAt_called hcompile hlocates hlength,
        lastArg_congr fun call hcall => Call.written?_member hname hk (hspares name hname) hcall,
        lastArg_map]
    rw [read, hname]
    show (Record.called schema calls).getNamed .u32 name 0 = _
    rw [Record.getNamed, Record.schema_called, hk]
    show ValueType.u32.read ((Record.called schema calls).bitsAt k 0) = _
    rw [hbits]
    cases lastArg (Call.member? family i) calls with
    | none => rfl
    | some value => exact ValueType.read_bits (.u32 value)

end Members

/-! ## Words of a player -/

/-- Where the entries of a player are among the words of its blocks. -/
structure PlayerWords (record : Record) (entries : List (Nat × UInt32)) : Prop where
  quest : ∀ i < Quest.log.size,
    (List.range 5).map (fun c => entries.lookup (10 + 5 * i + c)) =
      [(record.quest i).id, (record.quest i).state, (record.quest i).count.toUInt32,
        ((record.quest i).count >>> 32).toUInt32, (record.quest i).time].map some
  visibleItem : ∀ i < VisibleItem.slots.size,
    (List.range 2).map (fun c => entries.lookup (135 + 2 * i + c)) =
      [(record.visibleItem i).id, (record.visibleItem i).enchantment].map some
  /-- Two half words to a word, the first of them low. -/
  skill : ∀ i < Skill.list.size,
    (List.range 3).map (fun c => entries.lookup (488 + 3 * i + c)) =
      [pairWord (record.skill i).id (record.skill i).step,
        pairWord (record.skill i).level (record.skill i).cap,
        pairWord (record.skill i).temporaryBonus (record.skill i).permanentBonus].map some

section Words

variable {settings : Settings} {schema : Schema} {record : Record} {array : EntryArray}
  {kind : FieldKind} {block i : Nat}

/-- An array of entries is sent with the whole record, from its first block on. -/
theorem Part.Keeps.sent (h : Part.Keeps array kind block)
    (hcompile : Schema.compile settings Part.player.name Part.player.fields = .ok schema)
    (hsound : record.Sound) (hschema : record.schema = schema) (hi : i < array.size) :
    ∃ k p home, Part.player.Locates record.schema array.field k p ∧ p.home = some home ∧
      record.Sends false home ∧ p.field.kind = kind ∧ p.offset.toNat = block * blockBits := by
  subst hschema
  obtain ⟨k, p, hlocates, hfield⟩ := Part.locates hcompile h.field?_eq h.isPadding_eq
  obtain ⟨home, hhome, hlt⟩ := hlocates.home_of_sound hsound.schema
    (Nat.zero_lt_of_lt (h.lt_lengthOf hi h.width_pos))
  exact ⟨k, p, home, hlocates, hhome, ⟨hlt, nofun⟩, congrArg Field.kind hfield,
    hlocates.offset_eq.trans h.bitsTo_eq⟩

/-- The numbers of an entry are the words of the blocks of its own. -/
theorem Part.Keeps.words (h : Part.Keeps array .u32 block) (htype : array.type = .u32)
    (hcompile : Schema.compile settings Part.player.name Part.player.fields = .ok schema)
    (hsound : record.Sound) (hschema : record.schema = schema) (hi : i < array.size) :
    ∃ word : Nat → UInt32,
      array.read record i = (List.range array.width).map (fun c => .u32 (word c)) ∧
      ∀ c < array.width,
        (record.entries false).lookup (block + array.width * i + c) = some (word c) := by
  obtain ⟨k, p, home, hlocates, hhome, hsends, hkind, hoffset⟩ :=
    h.sent hcompile hsound hschema hi
  refine ⟨fun c => (record.bitsAt k (i * array.width + c)).toUInt32, ?_, fun c hc => ?_⟩
  · rw [EntryArray.read_eq hlocates.fieldNamed?_eq hi, htype]
    rfl
  · rw [Nat.mul_comm, Nat.add_assoc]
    exact hsound.lookup_word hlocates.placement?_eq hhome hsends (by rw [hkind]; rfl) hoffset
      (hlocates.length_eq ▸ h.lt_lengthOf hi hc)

/-- The numbers of an entry of half words are paired in the blocks of its own. -/
theorem Part.Keeps.pairs (h : Part.Keeps array .u16 block) (htype : array.type = .u16)
    (width : Nat) (hwidth : array.width = 2 * width)
    (hcompile : Schema.compile settings Part.player.name Part.player.fields = .ok schema)
    (hsound : record.Sound) (hschema : record.schema = schema) (hi : i < array.size) :
    ∃ half : Nat → UInt16,
      array.read record i = (List.range array.width).map (fun c => .u16 (half c)) ∧
      ∀ c < width, (record.entries false).lookup (block + width * i + c) =
        some (pairWord (half (2 * c)) (half (2 * c + 1))) := by
  obtain ⟨k, p, home, hlocates, hhome, hsends, hkind, hoffset⟩ :=
    h.sent hcompile hsound hschema hi
  refine ⟨fun c => (record.bitsAt k (i * array.width + c)).toUInt16, ?_, fun c hc => ?_⟩
  · rw [EntryArray.read_eq hlocates.fieldNamed?_eq hi, htype]
    rfl
  · -- an entry has an even number of half words, so it begins with the low half of a word
    have hlow : i * array.width + 2 * c = 2 * (width * i + c) := by
      rw [hwidth, Nat.mul_comm i, Nat.mul_assoc, Nat.mul_add]
    have hlt : 2 * (width * i + c) + 1 < Part.player.lengthOf array.field := by
      rw [← hlow]
      exact h.lt_lengthOf hi (show 2 * c + 1 < array.width by omega)
    show _ = some (pairWord (record.bitsAt k (i * array.width + 2 * c)).toUInt16
      (record.bitsAt k (i * array.width + 2 * c + 1)).toUInt16)
    rw [hlow, Nat.add_assoc]
    exact hsound.lookup_pair hlocates.placement?_eq hhome hsends (by rw [hkind]; rfl) hoffset
      (hlocates.length_eq ▸ hlt)

/-- A player that is sent as a whole has its entries in words of their own. -/
theorem Record.playerWords
    (hcompile : Schema.compile settings Part.player.name Part.player.fields = .ok schema)
    (hsound : record.Sound) (hschema : record.schema = schema) :
    PlayerWords record (record.entries false) where
  quest i hi := by
    obtain ⟨word, hread, hword⟩ := Part.keeps_log.words rfl hcompile hsound hschema hi
    have hquest : record.quest i = {
        id := word 0, state := word 1, count := joinWords (word 2) (word 3), time := word 4 } := by
      rw [Record.quest, hread]
      rfl
    have hlookup : (List.range 5).map (fun c => (record.entries false).lookup (10 + 5 * i + c)) =
        (List.range 5).map fun c => some (word c) :=
      List.map_congr_left fun c hc => hword c (List.mem_range.1 hc)
    rw [hlookup, hquest, low_joinWords, high_joinWords]
    rfl
  visibleItem i hi := by
    obtain ⟨word, hread, hword⟩ := Part.keeps_slots.words rfl hcompile hsound hschema hi
    have hitem : record.visibleItem i = { id := word 0, enchantment := word 1 } := by
      rw [Record.visibleItem, hread]
      rfl
    have hlookup : (List.range 2).map (fun c => (record.entries false).lookup (135 + 2 * i + c)) =
        (List.range 2).map fun c => some (word c) :=
      List.map_congr_left fun c hc => hword c (List.mem_range.1 hc)
    rw [hlookup, hitem]
    rfl
  skill i hi := by
    obtain ⟨half, hread, hpair⟩ := Part.keeps_list.pairs rfl 3 rfl hcompile hsound hschema hi
    have hskill : record.skill i = {
        id := half 0, step := half 1, level := half 2, cap := half 3,
        temporaryBonus := half 4, permanentBonus := half 5 } := by
      rw [Record.skill, hread]
      rfl
    have hlookup : (List.range 3).map (fun c => (record.entries false).lookup (488 + 3 * i + c)) =
        (List.range 3).map fun c => some (pairWord (half (2 * c)) (half (2 * c + 1))) :=
      List.map_congr_left fun c hc => hpair c (List.mem_range.1 hc)
    rw [hlookup, hskill]
    rfl

end Words

/-! ## Runs -/

/-- What holds of a player behind a run of typed calls and plain operations. -/
structure TypedPlayer (schema : Schema) (calls : List (Call .player)) : Prop where
  quest_eq : ∀ i, Spares schema calls Quest.log.field (i * Quest.log.width) Quest.log.width →
    (Record.called schema calls).quest i = (lastArg (Quest.form.gives? i) calls).getD {}
  visibleItem_eq : ∀ i,
    Spares schema calls VisibleItem.slots.field (i * VisibleItem.slots.width)
      VisibleItem.slots.width →
    (Record.called schema calls).visibleItem i =
      (lastArg (VisibleItem.form.gives? i) calls).getD {}
  skill_eq : ∀ i, Spares schema calls Skill.list.field (i * Skill.list.width) Skill.list.width →
    (Record.called schema calls).skill i = (lastArg (Skill.form.gives? i) calls).getD {}
  setters : Record.LocalSetters .player schema (Record.called schema calls)
  words : ∃ entries, ((Record.called schema calls).takePart false).1.entries? = some entries ∧
    PlayerWords (Record.called schema calls) entries

/-- What holds of a unit behind a run of typed calls and plain operations. -/
structure TypedUnit (schema : Schema) (calls : List (Call .unit)) : Prop where
  read_eq : ∀ (family : UnitFamily) (i : Nat),
    (∀ name, family.fields[i]? = some name → Spares schema calls name 0 1) →
    family.read (Record.called schema calls) i =
      .u32 ((lastArg (Call.member? family i) calls).getD 0)
  setters : Record.LocalSetters .unit schema (Record.called schema calls)

/-- A typed getter reads what was set last in range by its own setter, a setter out of range does
nothing, one in range flags the section of its field alone, and the entries of a player have their
words in what is sent. -/
theorem Record.typed_called (settings : Settings) :
    (∀ schema, Schema.compile settings Part.player.name Part.player.fields = .ok schema →
      ∀ calls, TypedPlayer schema calls) ∧
    (∀ schema, Schema.compile settings Part.unit.name Part.unit.fields = .ok schema →
      ∀ calls, TypedUnit schema calls) := by
  refine ⟨fun schema hcompile calls => ?_, fun schema hcompile calls => ?_⟩
  · have hsound : (called schema calls).Sound :=
      called_eq schema calls ▸ sound_reached Part.player.fitsSize_fields hcompile _
    exact {
      quest_eq _ hspares := Quest.lawful.read_called hcompile Part.keeps_log hspares
      visibleItem_eq _ hspares := VisibleItem.lawful.read_called hcompile Part.keeps_slots hspares
      skill_eq _ hspares := Skill.lawful.read_called hcompile Part.keeps_list hspares
      setters := localSetters_called hcompile calls
      words := ⟨_, hsound.entries?_encode false,
        playerWords hcompile hsound (schema_called schema calls)⟩ }
  · exact {
      read_eq _ _ hspares := UnitFamily.read_called hcompile hspares
      setters := localSetters_called hcompile calls }

/-- Every part compiles under the default settings. -/
theorem Part.exists_compile (part : Part) :
    ∃ schema, Schema.compile {} part.name part.fields = .ok schema := by
  have hsome : (Schema.compile {} part.name part.fields).toOption.map (fun _ => ()) = some () := by
    cases part <;> decide +kernel
  obtain ⟨schema, hcompile, -⟩ := Schema.exists_of_compile hsome
  exact ⟨schema, hcompile⟩

/-- A quest is set, and one past the last. A plain operation writes to another element of the log,
and the record is sent in between. -/
theorem Record.typed_called_quest :
    let quest : Quest := { id := 7, count := 4294967297 }
    let calls : List (Call .player) := [.set (.quest 3 quest), .plain (.takePart true),
      .plain (.edit (.setAt 43 20 (.u32 5))), .set (.quest 25 { id := 8 })]
    let calls' : List (Call .unit) := [.set (.member .stat 1 7), .plain .clearDirty,
      .set (.member .stat 5 8), .set (.member .power 1 9)]
    (∃ schema, Schema.compile {} Part.player.name Part.player.fields = .ok schema ∧
      (called schema calls).quest 3 = quest) ∧
    ∃ schema, Schema.compile {} Part.unit.name Part.unit.fields = .ok schema ∧
      UnitFamily.stat.read (called schema calls') 1 = .u32 7 := by
  intro quest calls calls'
  obtain ⟨schema, hcompile⟩ := Part.player.exists_compile
  obtain ⟨schema', hcompile'⟩ := Part.unit.exists_compile
  refine ⟨⟨schema, hcompile, ?_⟩, schema', hcompile', ?_⟩
  · refine ((typed_called {}).1 schema hcompile calls).quest_eq 3 ?_
    rintro k - operation hcall index - hlast
    simp only [calls, List.mem_cons, List.not_mem_nil, Call.plain.injEq, reduceCtorEq, false_or,
      or_false] at hcall
    rcases hcall with rfl | rfl
    · rfl
    · refine if_neg ?_
      rintro ⟨-, rfl⟩
      exact Nat.lt_irrefl 20 hlast
  · refine ((typed_called {}).2 schema' hcompile' calls').read_eq .stat 1 ?_
    rintro name - k - operation hcall index - -
    simp only [calls', List.mem_cons, List.not_mem_nil, Call.plain.injEq, reduceCtorEq, false_or,
      or_false] at hcall
    rw [hcall]
    rfl

end ObjectSync
