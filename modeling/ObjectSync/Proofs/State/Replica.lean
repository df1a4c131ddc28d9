import ObjectSync.Proofs.State.Decoding

/-!
# Replicas

A client keeps the words of an entity, all zero at first, and overwrites those that each message
brings. Only changed sections are sent, so between two messages the client lags behind; the
invariant is that it lags in flagged sections only (`Link.Agrees`). A change to a field flags the
section of the field (`Record.stretch_edit`), and a message brings all flagged sections up to date
before the flags are taken away.

**`Link.converges`** says that after every message the client has what a client would have that were
sent all sections at once. Again the width of the table has to be a size; in a wider one, a field may
have its slot in common with another one and flag nothing (`Link.not_converged_of_wrap`).
-/

namespace ObjectSync

/-! ## Receiving -/

/-- The words of a client with those that came in. A block that the client does not have is not
accepted. -/
def overwrite (words : List UInt32) : List (Nat × UInt32) → Option (List UInt32)
  | [] => some words
  | (block, word) :: rest =>
    if block < words.length then overwrite (words.set block word) rest else none

/-- The words of a client after a message, if it can be read. -/
def receive (words : List UInt32) (message : Bytes) : Option (List UInt32) :=
  match ValuesBlock.reader.run message with
  | some (entries, []) => overwrite words entries
  | _ => none

theorem overwrite_eq {words : List UInt32} {entries : List (Nat × UInt32)}
    (hblocks : ∀ entry ∈ entries, entry.1 < words.length)
    (hnodup : (entries.map Prod.fst).Nodup) :
    ∃ words', overwrite words entries = some words' ∧ words'.length = words.length ∧
      (∀ entry ∈ entries, words'[entry.1]? = some entry.2) ∧
      ∀ block ∉ entries.map Prod.fst, words'[block]? = words[block]? := by
  induction entries generalizing words with
  | nil => exact ⟨words, rfl, rfl, nofun, fun _ _ => rfl⟩
  | cons entry rest ih =>
    obtain ⟨block, word⟩ := entry
    obtain ⟨hfirst, hrest⟩ := List.nodup_cons.1 hnodup
    have hblock : block < words.length := hblocks _ List.mem_cons_self
    have hbounds : ∀ entry ∈ rest, entry.1 < (words.set block word).length := by
      intro entry hentry
      rw [List.length_set]
      exact hblocks entry (List.mem_cons_of_mem _ hentry)
    obtain ⟨words', heq, hlength, hnew, hold⟩ := ih hbounds hrest
    rw [List.length_set] at hlength
    refine ⟨words', by rw [overwrite, if_pos hblock, heq], hlength, ?_, ?_⟩
    · intro entry hentry
      rcases List.mem_cons.1 hentry with rfl | hentry
      · -- no later entry is for the same block
        rw [hold block hfirst, List.getElem?_set_self hblock]
      · exact hnew entry hentry
    · intro block' hblock'
      rw [List.map_cons, List.mem_cons, not_or] at hblock'
      rw [hold block' hblock'.2, List.getElem?_set_ne (Ne.symm hblock'.1)]

namespace Record

variable {record : Record} {part : Section} {i : Nat}

/-- A client with as many words takes the entries over and keeps all other words. -/
theorem Sound.receive_marshal (h : record.Sound) (onlyDirty : Bool) {words : List UInt32}
    (hwords : words.length = record.schema.blocks) :
    ∃ words', receive words (record.marshal onlyDirty).value.1 = some words' ∧
      words'.length = record.schema.blocks ∧
      (∀ entry ∈ record.entries onlyDirty, words'[entry.1]? = some entry.2) ∧
      ∀ block ∉ (record.entries onlyDirty).map Prod.fst, words'[block]? = words[block]? := by
  have hread := h.reads_marshal onlyDirty []
  rw [List.append_nil] at hread
  obtain ⟨words', heq, hlength, hnew, hold⟩ := overwrite_eq
    (fun entry hentry => hwords ▸ h.entry_lt onlyDirty entry hentry)
    (h.pairwise_entries onlyDirty).nodup
  exact ⟨words', by rw [receive, hread]; exact heq, hlength.trans hwords, hnew, hold⟩

theorem Sound.marshal_snd (h : record.Sound) (onlyDirty : Bool) :
    (record.marshal onlyDirty).value.2 = record.clearDirty := by
  obtain ⟨_, hmarshal, _⟩ := h.marshal_eq onlyDirty
  rw [hmarshal]
  rfl

/-- A flagged section is sent in any case. -/
theorem Sound.sends_of_holds (h : record.Sound) {onlyDirty : Bool}
    (hi : i < record.schema.sections.length) (hheld : record.dirty.holds i = true) :
    record.Sends onlyDirty i := by
  refine ⟨hi, fun _ => ?_⟩
  rw [DirtySet.isFlagged, h.dirty.capacity_eq, decide_eq_true hi, hheld]
  rfl

/-- A section that is left out has none of its blocks sent. -/
theorem Sound.not_mem_of_not_sends (h : record.Sound) {onlyDirty : Bool}
    (hpart : record.schema.sections[i]? = some part) (hsends : ¬record.Sends onlyDirty i)
    {entry : Nat × UInt32} (hentry : entry ∈ (record.stretch part).entries) :
    entry.1 ∉ (record.entries onlyDirty).map Prod.fst := by
  intro hmem
  have hkey := List.mem_map_of_mem (f := Prod.fst) hentry
  rw [(h.stretch (List.mem_of_getElem? hpart)).map_fst_entries] at hkey
  obtain ⟨i', part', hpart', hsends', hblock⟩ := (mem_map_fst_entries h).1 hmem
  have hsame := h.schema.arranged.section_unique hpart hpart' (Span.mem_blocks.1 hkey) hblock
  exact hsends (hsame ▸ hsends')

/-! ## Changes -/

/-- Writing an element of a field leaves the elements of all other fields. -/
theorem Sound.elements_setAt (h : record.Sound) {field : Nat} (index : Nat) (value : Value)
    {q : Placement} {k : Nat} (hk : record.schema.placement? k = some q) (hne : k ≠ field)
    (hnamed : q.field.isPadding = false) :
    (record.setAt field index value).elements q = record.elements q := by
  have hsound := h.setAt field index value
  have hmem := List.mem_of_getElem? hk
  have hmem' : q ∈ (record.setAt field index value).schema.placements := by rwa [schema_setAt]
  refine List.ext_getElem? fun j => ?_
  rw [getElem?_elements hsound hmem' hnamed, getElem?_elements h hmem hnamed]
  split
  · next hj =>
    rw [Record.setAt]
    cases hslot : record.slot? field index with
    | none => rfl
    | some slot =>
      obtain ⟨p, hp, hnamed', hindex, rfl⟩ := (slot?_eq_some_iff h).1 hslot
      have hslots := Field.slots_of_named hnamed
      have hslots' := Field.slots_of_named hnamed'
      rcases h.schema.arranged.before_or_before hk hp hne with ⟨_, hend⟩ | ⟨_, hend⟩
      · exact Array.getElem?_setIfInBounds_ne (by omega)
      · exact Array.getElem?_setIfInBounds_ne (by omega)
  · rfl

theorem holds_of_flagField {field : Nat} (hclean : (record.flagField field).dirty.holds i = false) :
    record.dirty.holds i = false := by
  rw [← Bool.not_eq_true] at hclean ⊢
  exact fun hheld => hclean (holds_flagField_of_holds hheld field)

/-- A field of a section that is not flagged afterwards was not the one that was flagged. -/
theorem Sound.ne_of_flagField (h : record.Sound) {field k : Nat}
    (hpart : record.schema.sections[i]? = some part) (hk : k ∈ part.fields)
    (hclean : (record.flagField field).dirty.holds i = false) : k ≠ field := by
  rintro rfl
  obtain ⟨p, hp, hhome, _⟩ := h.schema.arranged.field_of_section hpart hk
  have hplacement : record.schema.placement? k = some p := hp
  have hsection : record.schema.sectionOf? k = some i := by
    rw [Schema.sectionOf?, hplacement]
    exact hhome
  have hlt : ∀ j, record.schema.sectionOf? k = some j → j < record.schema.sections.length := by
    rw [hsection]
    rintro j ⟨⟩
    exact (List.getElem?_eq_some_iff.1 hpart).1
  rw [h.holds_flagField hlt, decide_eq_true hsection, Bool.true_or] at hclean
  cases hclean

/-- Writing an element leaves the words of every section that it does not flag. -/
theorem Sound.stretch_setAt (h : record.Sound) {field index : Nat} {value : Value}
    (hpart : record.schema.sections[i]? = some part)
    (hclean : (record.setAt field index value).dirty.holds i = false) :
    record.dirty.holds i = false ∧
      (record.setAt field index value).stretch part = record.stretch part := by
  cases hslot : record.slot? field index with
  | none =>
    have hsame : record.setAt field index value = record := by rw [Record.setAt, hslot]
    rw [hsame] at hclean ⊢
    exact ⟨hclean, rfl⟩
  | some slot =>
    have hdirty : (record.setAt field index value).dirty = (record.flagField field).dirty := by
      rw [Record.setAt, hslot]
      rfl
    rw [hdirty] at hclean
    refine ⟨holds_of_flagField hclean, ?_⟩
    have hlay : ∀ k ∈ part.fields, ∀ strip,
        (record.setAt field index value).layField part.span.start strip (id k) =
          record.layField part.span.start strip k := by
      intro k hk strip
      have hne := h.ne_of_flagField hpart hk hclean
      obtain ⟨q, hq, _, hnamed⟩ := h.schema.arranged.field_of_section hpart hk
      have hplacement : record.schema.placement? k = some q := hq
      rw [layField, layField, schema_setAt, id, hplacement]
      simp only [h.elements_setAt index value hq hne hnamed]
    rw [Record.stretch, Record.stretch, strip_congr id (List.map_id part.fields).symm rfl hlay]

/-- A change leaves the words of every section that it does not flag. -/
theorem Sound.stretch_edit (h : record.Sound) (edit : Edit)
    (hpart : record.schema.sections[i]? = some part)
    (hclean : (record.edit edit).dirty.holds i = false) :
    record.dirty.holds i = false ∧ (record.edit edit).stretch part = record.stretch part := by
  cases edit with
  | set field value => exact h.stretch_setAt hpart hclean
  | setAt field index value => exact h.stretch_setAt hpart hclean
  | flagField field => exact ⟨holds_of_flagField hclean, rfl⟩

theorem holds_of_flagName {name : String}
    (hclean : (record.flagName name).value.2.dirty.holds i = false) :
    record.dirty.holds i = false := by
  rw [← Bool.not_eq_true] at hclean ⊢
  exact fun hheld => hclean (DirtySet.holds_flagName_iff.2 (.inr hheld))

/-- The words of a blank record are zero. -/
theorem strip_blank {schema : Schema} (h : schema.Sound)
    (hpart : schema.sections[i]? = some part) :
    ((blank schema).strip part).words.toList = List.replicate part.span.count.toNat 0 := by
  have hsound := Sound.blank h
  have hlength : ((blank schema).strip part).words.toList.length = part.span.count.toNat := by
    rw [Array.length_toList, size_strip]
  refine eq_of_bitAt (by rw [hlength, List.length_replicate]) fun x => ?_
  have hzero : bitAt (List.replicate part.span.count.toNat 0) x = false := by
    rw [bitAt, List.getElem?_replicate]
    split <;> exact Nat.zero_testBit _
  rw [hzero]
  rcases Nat.lt_or_ge x (part.span.count.toNat * blockBits) with hx | hx
  · rw [← Bool.not_eq_true]
    intro hset
    obtain ⟨k, p, hk, hhome, hlays⟩ := (bit_strip hsound hpart hx).1 hset
    have hmem := List.mem_of_getElem? hk
    have hbit := hlays.2
    rw [Strip.bitOf, getElem?_elements hsound hmem (named_of_home hsound hmem hhome)] at hbit
    have hslots (slot : Nat) : (blank schema).slots[slot]?.getD 0 = 0 := by
      rw [blank, Array.getElem?_replicate]
      split <;> rfl
    split at hbit
    · rw [hslots] at hbit
      simp at hbit
    · simp at hbit
  · exact bitAt_of_length_le (hlength ▸ hx)

end Record

/-! ## Links -/

/-- A record and the words of a client that follows it. -/
structure Link where
  record : Record
  replica : List UInt32

/-- What may happen to a record that is followed. -/
inductive Turn where
  | edit (edit : Edit)
  | flagName (name : String)
  /-- The record is sent, and the client takes in the message. -/
  | send (onlyDirty : Bool)

namespace Link

/-- The link after a turn, if the client can read what was sent. -/
def turn (link : Link) : Turn → Option Link
  | .edit edit => some { link with record := link.record.edit edit }
  | .flagName name => some { link with record := (link.record.flagName name).value.2 }
  | .send onlyDirty =>
    let sent := (link.record.marshal onlyDirty).value
    (receive link.replica sent.1).map fun replica => { record := sent.2, replica }

def run (link : Link) (turns : List Turn) : Option Link := turns.foldlM turn link

/-- A blank record and a client that has nothing yet. -/
def start (schema : Schema) : Link where
  record := .blank schema
  replica := List.replicate schema.blocks 0

/-- The client has what a blank client would have that were sent all sections now. -/
def Converged (link : Link) : Prop :=
  receive (List.replicate link.record.schema.blocks 0) (link.record.marshal false).value.1 =
    some link.replica

/-- The client has a word for each block, and those of padding are zero. -/
structure Fits (link : Link) : Prop where
  sound : link.record.Sound
  length_eq : link.replica.length = link.record.schema.blocks
  padding : ∀ block < link.record.schema.blocks,
    (∀ part ∈ link.record.schema.sections, block ∉ part.span) → link.replica[block]? = some 0

/-- Besides, the client has the words of all sections that are not flagged. -/
structure Agrees (link : Link) : Prop extends Fits link where
  clean : ∀ i part, link.record.schema.sections[i]? = some part →
    link.record.dirty.holds i = false →
    ∀ entry ∈ (link.record.stretch part).entries, link.replica[entry.1]? = some entry.2

variable {link : Link}

/-- A client that lags in no section has everything. -/
theorem Agrees.converged (h : link.Agrees) (hnone : ∀ i, link.record.dirty.holds i = false) :
    link.Converged := by
  obtain ⟨words, hwords, hlength, hnew, hold⟩ :=
    h.sound.receive_marshal false (List.length_replicate (n := link.record.schema.blocks) (a := 0))
  rw [Converged, hwords]
  refine congrArg some (List.ext_getElem? fun block => ?_)
  rcases Nat.lt_or_ge block link.record.schema.blocks with hblock | hblock
  · by_cases hmem : block ∈ (link.record.entries false).map Prod.fst
    · obtain ⟨entry, hentry, rfl⟩ := List.mem_map.1 hmem
      obtain ⟨i, part, hi, _, hpart⟩ := (Record.mem_entries h.sound).1 hentry
      rw [hnew entry hentry, h.clean i part hi (hnone i) entry hpart]
    · have hpadding : ∀ part ∈ link.record.schema.sections, block ∉ part.span := by
        intro part hpart hin
        obtain ⟨i, hi⟩ := List.mem_iff_getElem?.1 hpart
        exact hmem ((Record.mem_map_fst_entries h.sound).2
          ⟨i, part, hi, ⟨(List.getElem?_eq_some_iff.1 hi).1, nofun⟩, hin⟩)
      rw [hold block hmem, h.padding block hblock hpadding, List.getElem?_replicate, if_pos hblock]
  · rw [List.getElem?_eq_none (by omega), List.getElem?_eq_none (by rw [h.length_eq]; exact hblock)]

theorem Agrees.start {schema : Schema} (h : schema.Sound) : (start schema).Agrees := by
  have hsound := Record.Sound.blank h
  have hzero (block : Nat) (hblock : block < schema.blocks) :
      (Link.start schema).replica[block]? = some 0 := by
    rw [Link.start, List.getElem?_replicate, if_pos hblock]
  have hclean (i : Nat) (part : Section) (hi : schema.sections[i]? = some part)
      (entry : Nat × UInt32) (hentry : entry ∈ ((Record.blank schema).stretch part).entries) :
      (Link.start schema).replica[entry.1]? = some entry.2 := by
    have hmem := List.mem_of_getElem? hi
    have hword := ((Record.mem_entries_stretch hsound hmem).1 hentry).2
    rw [← Array.getElem?_toList, Record.strip_blank h hi, List.getElem?_replicate] at hword
    have hkey := List.mem_map_of_mem (f := Prod.fst) hentry
    rw [(hsound.stretch hmem).map_fst_entries] at hkey
    have hlt := (Span.mem_blocks.1 hkey).2
    split at hword
    · rw [← Option.some.inj hword]
      exact hzero entry.1 (Nat.lt_of_lt_of_le hlt (h.arranged.stop_le part hmem))
    · cases hword
  exact {
    sound := hsound
    length_eq := List.length_replicate
    padding := fun block hblock _ => hzero block hblock
    clean := fun i part hi _ entry hentry => hclean i part hi entry hentry }

/-! ## Turns -/

/-- Sending brings the client up to date, if everything is sent or it was so up to the flagged
sections. -/
theorem Fits.send (h : link.Fits) (onlyDirty : Bool) :
    ∃ next, link.turn (.send onlyDirty) = some next ∧ next.record = link.record.clearDirty ∧
      next.Fits ∧ (onlyDirty = false ∨ link.Agrees → next.Agrees) := by
  obtain ⟨words, hwords, hlength, hnew, hold⟩ := h.sound.receive_marshal onlyDirty h.length_eq
  have hfits : Fits { record := link.record.clearDirty, replica := words } := {
    sound := h.sound.clearDirty
    length_eq := hlength
    padding := by
      intro block hblock hpadding
      have hmem : block ∉ (link.record.entries onlyDirty).map Prod.fst := by
        intro hmem
        obtain ⟨i, part, hi, _, hin⟩ := (Record.mem_map_fst_entries h.sound).1 hmem
        exact hpadding part (List.mem_of_getElem? hi) hin
      exact (hold block hmem).trans (h.padding block hblock hpadding) }
  refine ⟨_, ?_, rfl, hfits, fun hclean => { hfits with clean := ?_ }⟩
  · show (receive link.replica _).map _ = _
    rw [hwords, h.sound.marshal_snd]
    rfl
  · intro i part hi _ entry hentry
    have hpart : link.record.schema.sections[i]? = some part := hi
    have hentry' : entry ∈ (link.record.stretch part).entries := hentry
    have hlt := (List.getElem?_eq_some_iff.1 hpart).1
    by_cases hsends : link.record.Sends onlyDirty i
    · exact hnew entry ((Record.mem_entries h.sound).2 ⟨i, part, hpart, hsends, hentry'⟩)
    · -- the section was left out, so it was not flagged and the message leaves its words
      have hheld : link.record.dirty.holds i = false := by
        rw [← Bool.not_eq_true]
        exact fun hheld => hsends (h.sound.sends_of_holds hlt hheld)
      have hkept := hold entry.1 (h.sound.not_mem_of_not_sends hpart hsends hentry')
      rcases hclean with rfl | hagrees
      · exact absurd ⟨hlt, nofun⟩ hsends
      · exact hkept.trans (hagrees.clean i part hpart hheld entry hentry')

theorem Fits.send_converged (h : link.Fits) {onlyDirty : Bool}
    (hclean : onlyDirty = false ∨ link.Agrees) :
    ∃ next, link.turn (.send onlyDirty) = some next ∧ next.Agrees ∧ next.Converged := by
  obtain ⟨next, hnext, hrecord, _, hagrees⟩ := h.send onlyDirty
  have hnone : ∀ i, next.record.dirty.holds i = false := by
    rw [hrecord]
    exact fun _ => DirtySet.holds_clear
  exact ⟨next, hnext, hagrees hclean, (hagrees hclean).converged hnone⟩

theorem Fits.turn (h : link.Fits) (turn : Turn) :
    ∃ next, link.turn turn = some next ∧ next.Fits ∧ (link.Agrees → next.Agrees) := by
  cases turn with
  | edit edit =>
    have hfits : Fits { link with record := link.record.edit edit } := {
      sound := h.sound.edit edit
      length_eq := by simp only [Record.schema_edit]; exact h.length_eq
      padding := by simp only [Record.schema_edit]; exact h.padding }
    refine ⟨_, rfl, hfits, fun hagrees => { hfits with clean := ?_ }⟩
    simp only [Record.schema_edit]
    intro i part hi hclean
    obtain ⟨hheld, hstretch⟩ := h.sound.stretch_edit edit hi hclean
    rw [hstretch]
    exact hagrees.clean i part hi hheld
  | flagName name =>
    have hfits : Fits { link with record := (link.record.flagName name).value.2 } := {
      sound := h.sound.flagName name
      length_eq := h.length_eq
      padding := h.padding }
    refine ⟨_, rfl, hfits, fun hagrees => { hfits with clean := ?_ }⟩
    intro i part hi hclean
    exact hagrees.clean i part hi (Record.holds_of_flagName hclean)
  | send onlyDirty =>
    obtain ⟨next, hnext, _, hfits, hagrees⟩ := h.send onlyDirty
    exact ⟨next, hnext, hfits, fun h => hagrees (.inr h)⟩

theorem Fits.run (h : link.Fits) (turns : List Turn) :
    ∃ last, link.run turns = some last ∧ last.Fits ∧ (link.Agrees → last.Agrees) := by
  induction turns generalizing link with
  | nil => exact ⟨link, rfl, h, id⟩
  | cons turn rest ih =>
    obtain ⟨next, hnext, hfits, hagrees⟩ := h.turn turn
    obtain ⟨last, hlast, hfits', hagrees'⟩ := ih hfits
    refine ⟨last, ?_, hfits', fun h => hagrees' (hagrees h)⟩
    rw [Link.run, List.foldlM_cons, hnext]
    exact hlast

theorem run_append (link : Link) (turns turns' : List Turn) :
    link.run (turns ++ turns') = (link.run turns).bind fun next => next.run turns' :=
  List.foldlM_append

/-- After every message, and whatever happened before it, the client has converged. -/
def Follows (link : Link) : Prop :=
  ∀ turns onlyDirty, ∃ last, link.run (turns ++ [.send onlyDirty]) = some last ∧ last.Converged

theorem run_concat {next : Link} {turns : List Turn} (hnext : link.run turns = some next)
    (turn : Turn) : link.run (turns ++ [turn]) = next.turn turn := by
  rw [run_append, hnext]
  exact bind_pure (next.turn turn)

theorem Agrees.follows (h : link.Agrees) : link.Follows := by
  intro turns onlyDirty
  obtain ⟨next, hnext, hfits, hagrees⟩ := h.toFits.run turns
  obtain ⟨last, hlast, _, hconverged⟩ := hfits.send_converged (.inr (hagrees h))
  exact ⟨last, (run_concat hnext _).trans hlast, hconverged⟩

/-- A client follows from the start, and a client that has something else in the sections follows
from the first message on that sends all of them. -/
theorem converges {settings : Settings} {name : String} {table : List Field} {schema : Schema}
    (hfits : FitsSize table) (hcompile : Schema.compile settings name table = .ok schema) :
    (start schema).Follows ∧
      ∀ replica : List UInt32, replica.length = schema.blocks →
        (∀ block < schema.blocks,
          (∀ part ∈ schema.sections, block ∉ part.span) → replica[block]? = some 0) →
        ∀ turns, ∃ next,
          run { record := .blank schema, replica } (turns ++ [.send false]) = some next ∧
            next.Converged ∧ next.Follows := by
  have hsound := (Schema.compile_sound hfits hcompile).1
  refine ⟨(Agrees.start hsound).follows, fun replica hlength hpadding turns => ?_⟩
  have hblank : Fits { record := .blank schema, replica } := {
    sound := .blank hsound
    length_eq := hlength
    padding := hpadding }
  obtain ⟨last, hlast, hfits', _⟩ := hblank.run turns
  obtain ⟨next, hnext, hagrees, hconverged⟩ := hfits'.send_converged (.inl rfl)
  exact ⟨next, (run_concat hlast _).trans hnext, hconverged, hagrees.follows⟩

/-- A section, a block of padding and a section. -/
theorem converges_padded :
    let table : List Field := [.scalar "a" .u32, .padding .u32 1, .array "b" .u16 2]
    FitsSize table ∧ ∃ schema, Schema.compile {} "T" table = .ok schema ∧
      (start schema).Follows ∧
      ∃ next, run { record := .blank schema, replica := [5, 0, 6] }
          [.edit (.setAt 2 1 (.u16 7)), .send false] = some next ∧
        next.Converged ∧ next.Follows := by
  have hfits : FitsSize [.scalar "a" .u32, .padding .u32 1, .array "b" .u16 2] := by decide
  obtain ⟨schema, hcompile, hblocks, hsections⟩ : ∃ schema, Schema.compile {} "T"
      [.scalar "a" .u32, .padding .u32 1, .array "b" .u16 2] = .ok schema ∧ schema.blocks = 3 ∧
        schema.sections.map Section.span = [⟨0, 1⟩, ⟨2, 1⟩] := ⟨_, rfl, rfl, rfl⟩
  obtain ⟨hfollows, hrest⟩ := converges hfits hcompile
  have hpadding : ∀ block < schema.blocks, (∀ part ∈ schema.sections, block ∉ part.span) →
      ([5, 0, 6] : List UInt32)[block]? = some 0 := by
    intro block hblock hpadding
    have hspans : ∀ span ∈ schema.sections.map Section.span, block ∉ span := by
      intro span hspan
      obtain ⟨part, hpart, rfl⟩ := List.mem_map.1 hspan
      exact hpadding part hpart
    rw [hsections] at hspans
    rw [hblocks] at hblock
    clear hpadding
    revert block
    decide
  exact ⟨hfits, schema, hcompile, hfollows,
    hrest [5, 0, 6] hblocks.symm hpadding [.edit (.setAt 2 1 (.u16 7))]⟩

/-- In a table that is wider than any size, the last element has its slot in common with the first
field, whose section is not flagged when it is written. -/
theorem not_converged_of_wrap :
    ∃ schema, Schema.compile {} "T"
        [.scalar "a" .u32, .array "b" .u8 9223372036854775808,
          .array "c" .u8 9223372036854775808] = .ok schema ∧
      ¬(start schema).Follows := by
  have hrun : (Schema.compile {} "T" [.scalar "a" .u32, .array "b" .u8 9223372036854775808,
        .array "c" .u8 9223372036854775808]).toOption.map (fun schema =>
      ((start schema).run [.edit (.setAt 2 9223372036854775807 (.u32 7)), .send true]).map
        fun link => (link.replica, receive (List.replicate link.record.schema.blocks 0)
          (link.record.marshal false).value.1)) =
      some (some ([0], some [7])) := by decide +kernel
  cases hcompile : Schema.compile {} "T" [.scalar "a" .u32, .array "b" .u8 9223372036854775808,
      .array "c" .u8 9223372036854775808] with
  | error fault =>
    rw [hcompile] at hrun
    cases hrun
  | ok schema =>
    rw [hcompile] at hrun
    refine ⟨schema, rfl, fun hfollows => ?_⟩
    obtain ⟨last, hlast, hconverged⟩ :=
      hfollows [.edit (.setAt 2 9223372036854775807 (.u32 7))] true
    obtain ⟨link, hlink, hpair⟩ := Option.map_eq_some_iff.1 (Option.some.inj hrun)
    cases hlast.symm.trans hlink
    obtain ⟨hreplica, himage⟩ := Prod.mk.inj hpair
    rw [Converged, himage, hreplica] at hconverged
    cases hconverged

end Link

end ObjectSync
