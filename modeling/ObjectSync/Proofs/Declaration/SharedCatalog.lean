import ObjectSync.Entity.Composite
import ObjectSync.Proofs.Declaration.Catalog

/-!
# What the shared catalog answers

The shared catalog takes its settings from the first call that uses it: an installation brings its
own, if they are valid, and every other call brings the default ones (`Call.settings?`). Nothing
replaces them after that (`settings_run`), and since every call keeps the catalog sound, its answers
depend on them alone.

**`SharedCatalog.answers`** says so, next to what holds of any catalog.
-/

namespace ObjectSync

/-! ## Programs that only look at their state -/

def Still {ε σ α : Type} (program : ExceptT ε (StateM σ) α) : Prop := ∀ s, (program.run s).2 = s

section Programs

variable {ε σ α β : Type}

theorem run_modifyGet_bind (f : σ → β × σ) (next : β → ExceptT ε (StateM σ) α) (s : σ) :
    (modifyGet f >>= next).run s = (next (f s).1).run (f s).2 := rfl

/-- A step that may fail goes on from the state that it leaves, or ends there. -/
theorem run_mk_bind (f : σ → Except ε β × σ) (next : β → ExceptT ε (StateM σ) α) (s : σ) :
    (ExceptT.mk (modifyGet f) >>= next).run s =
      match f s with
      | (.ok b, t) => (next b).run t
      | (.error fault, t) => (.error fault, t) := by
  show (match f s with | (result, t) => ExceptT.bindCont next result t) = _
  rcases f s with ⟨_ | b, t⟩ <;> rfl

namespace Still

theorem pure (a : α) : Still (Pure.pure a : ExceptT ε (StateM σ) α) := fun _ => rfl

theorem get : Still (MonadState.get : ExceptT ε (StateM σ) σ) := fun _ => rfl

theorem lift (result : Except ε α) : Still (liftM result : ExceptT ε (StateM σ) α) := by
  cases result with
  | error => exact fun _ => rfl
  | ok => exact fun _ => rfl

/-- What only looks at the state leaves it as the program before did. -/
theorem run_bind (program : ExceptT ε (StateM σ) α) {next : α → ExceptT ε (StateM σ) β}
    (h : ∀ a, Still (next a)) (s : σ) : ((program >>= next).run s).2 = (program.run s).2 := by
  show (match program s with | (result, t) => ExceptT.bindCont next result t).2 = (program s).2
  rcases program s with ⟨_ | a, t⟩
  · rfl
  · exact h a t

theorem bind {program : ExceptT ε (StateM σ) α} {next : α → ExceptT ε (StateM σ) β}
    (h : Still program) (h' : ∀ a, Still (next a)) : Still (program >>= next) :=
  fun s => (run_bind program h' s).trans (h s)

end Still

end Programs

/-! ## The built-in parts -/

namespace Catalog

variable {κ : Type} [DecidableEq κ] [Declared κ] {catalog : Catalog κ}

theorem run_registerParts_cons (key : Part → κ) (part : Part) (rest : List Part) :
    ((registerParts key (part :: rest)).run catalog).2 =
      match catalog.register (key part) with
      | (.ok _, next) => ((registerParts key rest).run next).2
      | (.error _, next) => next := by
  rw [registerParts, run_mk_bind]
  cases catalog.register (key part) with
  | mk found next =>
    cases found with
    | error fault => rfl
    | ok schema => exact Still.run_bind _ (fun _ => .pure _) next

/-- Registering parts keeps a catalog sound, also when one of them does not compile. -/
theorem Sound.registerParts (h : catalog.Sound) (key : Part → κ) (parts : List Part) :
    ((Catalog.registerParts key parts).run catalog).2.Sound ∧
      ((Catalog.registerParts key parts).run catalog).2.settings = catalog.settings := by
  induction parts generalizing catalog with
  | nil => exact ⟨h, rfl⟩
  | cons part rest ih =>
    rw [run_registerParts_cons, h.register_eq]
    cases houtcome : outcome catalog.settings (key part) with
    | error fault => exact ⟨h, rfl⟩
    | ok schema =>
      obtain ⟨hsound, hsettings⟩ := ih (h.keep houtcome)
      exact ⟨hsound, hsettings.trans settings_keep⟩

/-- The checks that follow the registration change nothing. -/
theorem run_registerBuiltin (key : Part → κ) :
    ((registerBuiltin key).run catalog).2 =
      ((registerParts key EntityKind.player.parts).run catalog).2 := by
  have hcheck (kind : EntityKind) (schemas : List Schema) : Still (do
      let _ ← (← get).layout kind.name (schemas.take kind.parts.length)
      return ForInStep.yield PUnit.unit : ExceptT SchemaFault (StateM (Catalog κ)) _) :=
    .bind .get fun _ => .bind (.lift _) fun _ => .pure _
  rw [registerBuiltin]
  refine Still.run_bind _ (fun schemas => ?_) catalog
  -- The loop over the kinds, each with its check, is unrolled into two of them.
  simp only [List.forIn_cons, List.forIn_nil]
  refine .bind (.bind (hcheck .creature schemas) fun step => ?_) fun _ => .pure _
  cases step with
  | done b => exact .pure b
  | yield b =>
    refine .bind (hcheck .player schemas) fun step => ?_
    cases step with
    | done b => exact .pure b
    | yield b => exact .pure b

end Catalog

namespace SharedCatalog

variable {κ : Type}

/-! ## Calls -/

inductive Call (κ : Type) where
  | install (settings : Settings)
  | use
  | schemaOf (type : κ)
  | layoutOf (name : String) (schemas : List Schema)
  | registerBuiltin

inductive Answer where
  | done
  | schema (schema : Schema)
  | layout (layout : Layout)
  | refused (fault : SettingsFault)
  | failed (fault : SchemaFault)
  /-- The call does not return. -/
  | panicked (misdeclaration : Misdeclaration)

/-- The settings that the call brings, when nothing has used the catalog. -/
def Call.settings? : Call κ → Option Settings
  | .install settings => settings.validate.toOption
  | _ => some {}

/-- The settings that the catalog is used with, if it is. -/
def settings? (shared : SharedCatalog κ) : Option Settings := shared.inUse?.map Catalog.settings

theorem settings_catalog (shared : SharedCatalog κ) :
    shared.catalog.settings = shared.settings?.getD {} := by
  rw [catalog, settings?]
  cases shared.inUse? <;> rfl

theorem settings?_ofCatalog {shared : SharedCatalog κ} {catalog : Catalog κ}
    (h : catalog.settings = shared.catalog.settings) :
    (ofCatalog catalog).settings? = shared.settings?.or (some {}) := by
  show some catalog.settings = _
  rw [h, settings_catalog, Option.or_some]

variable [DecidableEq κ] [Declared κ]

/-- The answer to a call, and the shared catalog after it. -/
def call (key : Part → κ) (shared : SharedCatalog κ) : Call κ → Answer × SharedCatalog κ
  | .install settings =>
    match shared.install settings with
    | (.ok _, next) => (.done, next)
    | (.error fault, next) => (.refused fault, next)
  | .use => (.done, shared.use.2)
  | .schemaOf type =>
    match (schemaOf type).run shared with
    | (.ok schema, next) => (.schema schema, next)
    | (.error misdeclaration, next) => (.panicked misdeclaration, next)
  | .layoutOf name schemas =>
    match (layoutOf name schemas).run shared with
    | (.ok layout, next) => (.layout layout, next)
    | (.error misdeclaration, next) => (.panicked misdeclaration, next)
  | .registerBuiltin =>
    match shared.registerBuiltin key with
    | (.ok _, next) => (.done, next)
    | (.error fault, next) => (.failed fault, next)

def run (key : Part → κ) (shared : SharedCatalog κ) (calls : List (Call κ)) : SharedCatalog κ :=
  calls.foldl (fun shared next => (shared.call key next).2) shared

section Call

variable {key : Part → κ} {shared : SharedCatalog κ} {settings : Settings}

theorem call_install_of_invalid (h : settings.maxMaskWords = 0) :
    shared.call key (.install settings) = (.refused .noMaskWords, shared) := by
  rw [call, install, Settings.validate, if_pos h]

theorem call_install_of_isSome (hvalid : settings.maxMaskWords ≠ 0)
    (huse : shared.inUse?.isSome = true) :
    shared.call key (.install settings) = (.refused .alreadyInstalled, shared) := by
  obtain ⟨catalog, hcatalog⟩ := Option.isSome_iff_exists.1 huse
  rw [call, install, Settings.validate, if_neg hvalid, hcatalog]

theorem call_install_of_none (hvalid : settings.maxMaskWords ≠ 0) (huse : shared.inUse? = none) :
    shared.call key (.install settings) = (.done, ofCatalog { settings }) := by
  rw [call, install, Settings.validate, if_neg hvalid, huse]

/-- A type is answered with what it compiles to, and kept if it does. -/
theorem call_schemaOf (h : shared.catalog.Sound) (type : κ) :
    shared.call key (.schemaOf type) =
      match Catalog.outcome shared.catalog.settings type with
      | .ok schema => (.schema schema, ofCatalog (shared.catalog.keep type schema))
      | .error fault =>
        (.panicked (.schema (Declared.name type) fault), ofCatalog shared.catalog) := by
  have hregister : shared.onCatalog (·.register type) =
      ((shared.catalog.register type).1, ofCatalog (shared.catalog.register type).2) := rfl
  rw [call, schemaOf, run_modifyGet_bind, hregister, h.register_eq]
  cases Catalog.outcome shared.catalog.settings type with
  | ok schema => rfl
  | error fault => rfl

theorem call_layoutOf (name : String) (schemas : List Schema) :
    shared.call key (.layoutOf name schemas) =
      (match Layout.ofSchemas shared.catalog.settings name schemas with
        | .ok layout => .layout layout
        | .error fault => .panicked (.composite name fault), ofCatalog shared.catalog) := by
  rw [call, layoutOf, run_modifyGet_bind, use, Catalog.layout]
  cases Layout.ofSchemas shared.catalog.settings name schemas with
  | ok layout => rfl
  | error fault => rfl

theorem call_registerBuiltin :
    (shared.call key .registerBuiltin).2 =
      ofCatalog ((Catalog.registerParts key EntityKind.player.parts).run shared.catalog).2 := by
  have hregistered : (shared.registerBuiltin key).2 =
      ofCatalog ((Catalog.registerBuiltin key).run shared.catalog).2 := rfl
  rw [← Catalog.run_registerBuiltin, ← hregistered, call]
  rcases shared.registerBuiltin key with ⟨_ | _, next⟩ <;> rfl

theorem sound_call (h : shared.catalog.Sound) (next : Call κ) :
    (shared.call key next).2.catalog.Sound := by
  cases next with
  | install settings =>
    by_cases hvalid : settings.maxMaskWords = 0
    · rwa [call_install_of_invalid hvalid]
    · cases huse : shared.inUse? with
      | none =>
        rw [call_install_of_none hvalid huse]
        exact .empty settings
      | some catalog => rwa [call_install_of_isSome hvalid (by rw [huse]; rfl)]
  | use => exact h
  | schemaOf type =>
    rw [call_schemaOf h]
    cases houtcome : Catalog.outcome shared.catalog.settings type with
    | ok schema => exact h.keep houtcome
    | error fault => exact h
  | layoutOf name schemas =>
    rw [call_layoutOf]
    exact h
  | registerBuiltin =>
    rw [call_registerBuiltin]
    exact (h.registerParts key _).1

/-- Settings once in use stay, and otherwise the call brings its own. -/
theorem settings_call (h : shared.catalog.Sound) (next : Call κ) :
    (shared.call key next).2.settings? = shared.settings?.or next.settings? := by
  cases next with
  | install settings =>
    by_cases hvalid : settings.maxMaskWords = 0
    · rw [call_install_of_invalid hvalid, Call.settings?, Settings.validate, if_pos hvalid]
      exact Option.or_none.symm
    · rw [Call.settings?, Settings.validate, if_neg hvalid]
      cases huse : shared.inUse? with
      | none =>
        rw [call_install_of_none hvalid huse, SharedCatalog.settings?, SharedCatalog.settings?, huse]
        rfl
      | some catalog =>
        rw [call_install_of_isSome hvalid (by rw [huse]; rfl), SharedCatalog.settings?, huse]
        rfl
  | use => exact settings?_ofCatalog rfl
  | schemaOf type =>
    rw [call_schemaOf h]
    cases Catalog.outcome shared.catalog.settings type with
    | ok schema => exact settings?_ofCatalog Catalog.settings_keep
    | error fault => exact settings?_ofCatalog rfl
  | layoutOf name schemas =>
    rw [call_layoutOf]
    exact settings?_ofCatalog rfl
  | registerBuiltin =>
    rw [call_registerBuiltin]
    exact settings?_ofCatalog (h.registerParts key _).2

/-- A call that does not return leaves all schemas and settings as the next one would have found
them. -/
theorem catalog_of_panicked (h : shared.catalog.Sound) {next : Call κ}
    {misdeclaration : Misdeclaration}
    (hpanic : (shared.call key next).1 = .panicked misdeclaration) :
    (shared.call key next).2.catalog = shared.catalog := by
  cases next with
  | install settings =>
    rw [call] at hpanic
    split at hpanic <;> cases hpanic
  | use => rfl
  | schemaOf type =>
    rw [call_schemaOf h] at hpanic ⊢
    cases houtcome : Catalog.outcome shared.catalog.settings type with
    | ok schema =>
      rw [houtcome] at hpanic
      cases hpanic
    | error fault => rfl
  | layoutOf name schemas =>
    rw [call_layoutOf]
    rfl
  | registerBuiltin =>
    rw [call] at hpanic
    split at hpanic <;> cases hpanic

theorem sound_run (h : shared.catalog.Sound) (calls : List (Call κ)) :
    (run key shared calls).catalog.Sound := by
  induction calls generalizing shared with
  | nil => exact h
  | cons next rest ih => exact ih (sound_call h next)

/-- The first call that brings settings decides. -/
theorem settings_run (h : shared.catalog.Sound) (calls : List (Call κ)) :
    (run key shared calls).settings? = shared.settings?.or (calls.findSome? Call.settings?) := by
  induction calls generalizing shared with
  | nil => exact Option.or_none.symm
  | cons next rest ih =>
    refine (ih (sound_call h next)).trans ?_
    rw [settings_call h, Option.or_assoc, List.findSome?_cons]
    cases next.settings? <;> rfl

end Call

/-! ## Runs -/

/-- What the shared catalog answers after several calls, and what they leave of it. -/
structure Settled (key : Part → κ) (calls : List (Call κ)) (shared : SharedCatalog κ) : Prop where
  /-- The settings are those of the first call that brings some. -/
  settings_eq : shared.settings? = calls.findSome? Call.settings?
  /-- Invalid settings are never installed. -/
  invalid : ∀ settings : Settings, settings.maxMaskWords = 0 →
    shared.call key (.install settings) = (.refused .noMaskWords, shared)
  /-- None are installed once the catalog is in use. -/
  late : shared.inUse?.isSome = true → ∀ settings : Settings,
    shared.call key (.install settings) =
      (.refused (if settings.maxMaskWords = 0 then .noMaskWords else .alreadyInstalled), shared)
  panicked : ∀ next misdeclaration, (shared.call key next).1 = .panicked misdeclaration →
    (shared.call key next).2.catalog = shared.catalog
  /-- The answers depend on the settings alone. -/
  schemaOf_eq : ∀ type, (shared.call key (.schemaOf type)).1 =
    match Schema.compile ((calls.findSome? Call.settings?).getD {}) (Declared.name type)
        (Declared.table type) with
    | .ok schema => .schema schema
    | .error fault => .panicked (.schema (Declared.name type) fault)
  layoutOf_eq : ∀ name schemas, (shared.call key (.layoutOf name schemas)).1 =
    match Layout.ofSchemas ((calls.findSome? Call.settings?).getD {}) name schemas with
    | .ok layout => .layout layout
    | .error fault => .panicked (.composite name fault)

theorem settled (key : Part → κ) (calls : List (Call κ)) : Settled key calls (run key {} calls) := by
  have hempty : ({} : SharedCatalog κ).catalog.Sound := .empty {}
  have hsound : (run key {} calls).catalog.Sound := sound_run hempty calls
  have hsettings : (run key {} calls).settings? = calls.findSome? Call.settings? :=
    settings_run hempty calls
  have hcatalog :
      (run key {} calls).catalog.settings = (calls.findSome? Call.settings?).getD {} := by
    rw [settings_catalog, hsettings]
  constructor
  case settings_eq => exact hsettings
  case invalid => exact fun settings hinvalid => call_install_of_invalid hinvalid
  case late =>
    intro huse settings
    by_cases hvalid : settings.maxMaskWords = 0
    · rw [if_pos hvalid]
      exact call_install_of_invalid hvalid
    · rw [if_neg hvalid]
      exact call_install_of_isSome hvalid huse
  case panicked => exact fun next misdeclaration hpanic => catalog_of_panicked hsound hpanic
  case schemaOf_eq =>
    intro type
    rw [call_schemaOf hsound, hcatalog]
    show _ = match Catalog.outcome _ type with | .ok schema => _ | .error fault => _
    cases Catalog.outcome ((calls.findSome? Call.settings?).getD {}) type with
    | ok schema => rfl
    | error fault => rfl
  case layoutOf_eq =>
    intro name schemas
    rw [call_layoutOf, hcatalog]

/-- Neither what a catalog was asked for before nor what happened to the shared one changes an
answer. Only the settings do, and they are fixed when they are first used. -/
theorem answers (key : Part → κ) :
    (∀ (settings : Settings) (requests : List (Catalog.Request κ)),
      Catalog.Served settings requests (Catalog.run { settings } requests)) ∧
    ∀ calls : List (Call κ), Settled key calls (run key {} calls) :=
  ⟨Catalog.served, settled key⟩

end SharedCatalog

end ObjectSync
