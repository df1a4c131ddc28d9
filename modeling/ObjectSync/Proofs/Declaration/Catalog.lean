import Mathlib.Data.List.Dedup
import ObjectSync.Declaration.Catalog

/-!
# What a catalog answers

A catalog is `Sound` when each schema that it keeps is what its type compiles to, and no type is
kept twice. Then it does not matter what it keeps: a type is answered with what its table compiles
to (`Sound.register_eq`). A request keeps the catalog sound and takes nothing out of it, and adds
the type that it registers, if that compiles (`Sound.mem_types_serve`).

**`Sound.served`** says what follows for a run of requests: the answers do not depend on it, and the
types kept are those that it registered successfully.
-/

namespace ObjectSync

namespace Catalog

variable {κ : Type}

def types (catalog : Catalog κ) : List κ := catalog.schemas.map Prod.fst

/-! ## Sound catalogs -/

section Declared

variable [Declared κ]

/-- What the table of a type compiles to. -/
def outcome (settings : Settings) (type : κ) : Except SchemaFault Schema :=
  Schema.compile settings (Declared.name type) (Declared.table type)

/-- Each type is kept once, with what its table compiles to. -/
structure Sound (catalog : Catalog κ) : Prop where
  compiled : ∀ entry ∈ catalog.schemas, outcome catalog.settings entry.1 = .ok entry.2
  nodup : catalog.types.Nodup

theorem Sound.empty (settings : Settings) : Sound ({ settings } : Catalog κ) where
  compiled := nofun
  nodup := .nil

end Declared

section Keep

variable [DecidableEq κ]

/-- The catalog with a schema for the type, which stands behind the others if the type is new. -/
def keep (catalog : Catalog κ) (type : κ) (schema : Schema) : Catalog κ :=
  if type ∈ catalog.types then catalog
  else { catalog with schemas := catalog.schemas ++ [(type, schema)] }

variable {catalog : Catalog κ} {type other : κ} {schema : Schema}

theorem get?_eq_none_iff : catalog.get? type = none ↔ type ∉ catalog.types := by
  rw [get?, List.lookup_eq_none_iff, types, List.mem_map]
  simp only [bne_iff_ne, not_exists, not_and]
  exact forall₂_congr fun entry _ => ⟨fun h => Ne.symm h, fun h => Ne.symm h⟩

theorem mem_schemas_of_get? (h : catalog.get? type = some schema) :
    (type, schema) ∈ catalog.schemas := by
  obtain ⟨before, after, heq, _⟩ := List.lookup_eq_some_iff.1 h
  rw [heq]
  exact List.mem_append_right before List.mem_cons_self

@[simp] theorem settings_keep : (catalog.keep type schema).settings = catalog.settings := by
  rw [keep]
  split <;> rfl

theorem mem_types_keep :
    other ∈ (catalog.keep type schema).types ↔ other ∈ catalog.types ∨ other = type := by
  rw [keep]
  split
  · next hmem => exact ⟨.inl, fun h => h.elim id fun heq => heq ▸ hmem⟩
  · rw [types, List.map_append, List.mem_append, List.map_singleton, List.mem_singleton]
    rfl

theorem nodup_types_keep (h : catalog.types.Nodup) : (catalog.keep type schema).types.Nodup := by
  rw [keep]
  split
  · exact h
  · next hnew =>
    rw [types, List.map_append]
    exact h.append (List.nodup_singleton type) (List.disjoint_singleton.2 hnew)

end Keep

variable [DecidableEq κ] [Declared κ]

namespace Sound

variable {catalog : Catalog κ} {type : κ} {schema : Schema}

theorem get?_eq_some_iff (h : catalog.Sound) :
    catalog.get? type = some schema ↔
      type ∈ catalog.types ∧ outcome catalog.settings type = .ok schema := by
  constructor
  · intro hget
    have hmem := mem_schemas_of_get? hget
    exact ⟨List.mem_map_of_mem hmem, h.compiled _ hmem⟩
  · rintro ⟨hmem, hok⟩
    cases hget : catalog.get? type with
    | none => exact absurd hmem (get?_eq_none_iff.1 hget)
    | some kept =>
      have hkept := h.compiled _ (mem_schemas_of_get? hget)
      rw [hok] at hkept
      cases hkept
      rfl

/-- Whatever is kept, a type is answered with what its table compiles to, and kept from then on if
it does compile. -/
theorem register_eq (h : catalog.Sound) (type : κ) :
    catalog.register type =
      (outcome catalog.settings type,
        match outcome catalog.settings type with
        | .ok schema => catalog.keep type schema
        | .error _ => catalog) := by
  rw [register]
  cases hget : catalog.get? type with
  | some schema =>
    obtain ⟨hmem, hok⟩ := h.get?_eq_some_iff.1 hget
    have hkeep : catalog.keep type schema = catalog := if_pos hmem
    rw [hok]
    exact congrArg (Prod.mk _) hkeep.symm
  | none =>
    show (match outcome catalog.settings type with | .ok _ => _ | .error _ => _) = _
    cases outcome catalog.settings type with
    | ok schema =>
      have hkeep : catalog.keep type schema =
          { catalog with schemas := catalog.schemas ++ [(type, schema)] } :=
        if_neg (get?_eq_none_iff.1 hget)
      exact congrArg (Prod.mk _) hkeep.symm
    | error fault => rfl

theorem keep (h : catalog.Sound) (hok : outcome catalog.settings type = .ok schema) :
    (catalog.keep type schema).Sound where
  compiled entry hentry := by
    rw [settings_keep]
    rw [Catalog.keep] at hentry
    split at hentry
    · exact h.compiled entry hentry
    · rcases List.mem_append.1 hentry with hold | hnew
      · exact h.compiled entry hold
      · obtain rfl := List.mem_singleton.1 hnew
        exact hok
  nodup := nodup_types_keep h.nodup

end Sound

/-! ## Requests -/

inductive Request (κ : Type) where
  | register (type : κ)
  | get (type : κ)

/-- The catalog after a request. -/
def serve (catalog : Catalog κ) : Request κ → Catalog κ
  | .register type => (catalog.register type).2
  | .get _ => catalog

/-- The type that the request registers, if it compiles. -/
def success? (catalog : Catalog κ) : Request κ → Option κ
  | .register type => (catalog.register type).1.toOption.map fun _ => type
  | .get _ => none

/-- The types that a run of requests registers successfully, each as often as it does. -/
def successes (catalog : Catalog κ) : List (Request κ) → List κ
  | [] => []
  | request :: rest => (catalog.success? request).toList ++ (catalog.serve request).successes rest

def run (catalog : Catalog κ) (requests : List (Request κ)) : Catalog κ :=
  requests.foldl serve catalog

namespace Sound

variable {catalog : Catalog κ} {type : κ} {schema : Schema} {request : Request κ}

/-- A request leaves the catalog as it was, or keeps a type with what it compiles to. -/
theorem serve_cases (h : catalog.Sound) (request : Request κ) :
    (catalog.success? request = none ∧ catalog.serve request = catalog) ∨
      ∃ type schema, outcome catalog.settings type = .ok schema ∧
        catalog.success? request = some type ∧ catalog.serve request = catalog.keep type schema := by
  cases request with
  | get => exact .inl ⟨rfl, rfl⟩
  | register type =>
    rw [success?, Catalog.serve, h.register_eq]
    cases houtcome : outcome catalog.settings type with
    | error fault => exact .inl ⟨rfl, rfl⟩
    | ok schema => exact .inr ⟨type, schema, houtcome, rfl, rfl⟩

theorem serve (h : catalog.Sound) (request : Request κ) : (catalog.serve request).Sound := by
  rcases h.serve_cases request with ⟨_, hserve⟩ | ⟨type, schema, hok, _, hserve⟩
  · rwa [hserve]
  · rw [hserve]
    exact h.keep hok

theorem settings_serve (h : catalog.Sound) (request : Request κ) :
    (catalog.serve request).settings = catalog.settings := by
  rcases h.serve_cases request with ⟨_, hserve⟩ | ⟨type, schema, _, _, hserve⟩
  · rw [hserve]
  · rw [hserve, settings_keep]

/-- A request adds the type that it registers, and takes none away. -/
theorem mem_types_serve (h : catalog.Sound) :
    type ∈ (catalog.serve request).types ↔
      type ∈ catalog.types ∨ catalog.success? request = some type := by
  rcases h.serve_cases request with ⟨hnone, hserve⟩ | ⟨type', schema, _, hsome, hserve⟩
  · rw [hserve, hnone]
    exact ⟨.inl, fun h => h.elim id nofun⟩
  · rw [hserve, hsome, mem_types_keep, Option.some.injEq, eq_comm]

theorem run (h : catalog.Sound) (requests : List (Request κ)) : (catalog.run requests).Sound := by
  induction requests generalizing catalog with
  | nil => exact h
  | cons request rest ih => exact ih (h.serve request)

theorem settings_run (h : catalog.Sound) (requests : List (Request κ)) :
    (catalog.run requests).settings = catalog.settings := by
  induction requests generalizing catalog with
  | nil => rfl
  | cons request rest ih => exact (ih (h.serve request)).trans (h.settings_serve request)

theorem mem_types_run (h : catalog.Sound) (requests : List (Request κ)) :
    type ∈ (catalog.run requests).types ↔
      type ∈ catalog.types ∨ type ∈ catalog.successes requests := by
  induction requests generalizing catalog with
  | nil => exact ⟨.inl, fun h => h.elim id nofun⟩
  | cons request rest ih =>
    refine (ih (h.serve request)).trans ?_
    rw [h.mem_types_serve, successes, List.mem_append, Option.mem_toList, or_assoc]

end Sound

/-! ## Runs -/

/-- What a catalog that started empty answers after a run of requests, and what becomes of it. -/
structure Served (settings : Settings) (requests : List (Request κ)) (catalog : Catalog κ) :
    Prop where
  /-- A type is answered with what its table compiles to. -/
  register_eq : ∀ type, (catalog.register type).1 =
    Schema.compile settings (Declared.name type) (Declared.table type)
  /-- A type is found with that schema if it was registered successfully. -/
  get?_eq_some_iff : ∀ type schema, catalog.get? type = some schema ↔
    type ∈ successes { settings } requests ∧
      Schema.compile settings (Declared.name type) (Declared.table type) = .ok schema
  size_eq : catalog.size = (successes { settings } requests).dedup.length
  /-- What is found is found after any more requests. -/
  kept : ∀ type schema more, catalog.get? type = some schema →
    (catalog.run more).get? type = some schema
  /-- A type that does not compile changes nothing. -/
  failed : ∀ type fault, (catalog.register type).1 = .error fault →
    (catalog.register type).2 = catalog

theorem served (settings : Settings) (requests : List (Request κ)) :
    Served settings requests (run { settings } requests) := by
  have hempty : Sound ({ settings } : Catalog κ) := .empty settings
  have hsound := hempty.run requests
  have hsettings := hempty.settings_run requests
  have htypes (type : κ) : type ∈ (run { settings } requests).types ↔
      type ∈ successes { settings } requests := by
    rw [hempty.mem_types_run]
    exact ⟨fun h => h.elim nofun id, .inr⟩
  constructor
  case register_eq =>
    intro type
    rw [hsound.register_eq, hsettings]
    rfl
  case get?_eq_some_iff =>
    intro type schema
    rw [hsound.get?_eq_some_iff, hsettings, htypes]
    rfl
  case size_eq =>
    have hperm : (run { settings } requests).types.Perm (successes { settings } requests).dedup :=
      (List.perm_ext_iff_of_nodup hsound.nodup (List.nodup_dedup _)).2 fun type => by
        rw [htypes, List.mem_dedup]
    rw [← hperm.length_eq, types, List.length_map]
    rfl
  case kept =>
    intro type schema more hget
    obtain ⟨hmem, hok⟩ := hsound.get?_eq_some_iff.1 hget
    rw [(hsound.run more).get?_eq_some_iff, hsound.settings_run]
    exact ⟨(hsound.mem_types_run more).2 (.inl hmem), hok⟩
  case failed =>
    intro type fault hfault
    rw [hsound.register_eq] at hfault ⊢
    rw [show outcome _ type = .error fault from hfault]

end Catalog

end ObjectSync
