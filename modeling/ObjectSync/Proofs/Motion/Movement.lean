import ObjectSync.Motion.Movement
import ObjectSync.Proofs.Motion.Living

/-!
# What operations keep of movement blocks

The three regions of a block are kept apart, and nothing in a block forbids two of them. That
operations never leave two (`Movement.Exclusive`) is kept by each of them: one that sets a region
clears the other two, one that clears a region or changes the living one in place adds none
(`Exclusive.apply`). A living region stays announced by its own flags (`Announced.apply`).

The flags of a block are read off what is there, each off its own part (`meets_flags`,
`Flagged.of_movement`), whatever else the block holds.
-/

namespace ObjectSync

open FlagSet

namespace Movement

/-- An operation on a movement block. A living region that is put in is told by how it was made. -/
inductive Operation where
  | setSelf (isSelf : Bool)
  | setLiving (living : Option (Kinematics × List Living.Operation))
  | setCarried (position : Option CarriedPosition)
  | setStationary (pose : Option Pose)
  | setHighGuid (high : Option UInt32)
  | setLowGuid (low : Option UInt32)
  | setAttackingTarget (target : Option Guid)
  | setTransportTime (time : Option UInt32)
  | setVehicle (vehicle : Option Vehicle)
  | setRotation (rotation : Option UInt64)
  /-- Changes the living region in place, if there is one. -/
  | onLiving (operation : Living.Operation)
deriving DecidableEq, Repr

def apply (m : Movement) : Operation → Movement
  | .setSelf isSelf => { m with isSelf }
  | .setLiving living => m.setLiving (living.map fun made => Living.build made.1 made.2)
  | .setCarried position => m.setCarried position
  | .setStationary pose => m.setStationary pose
  | .setHighGuid highGuid => { m with highGuid }
  | .setLowGuid lowGuid => { m with lowGuid }
  | .setAttackingTarget attackingTarget => { m with attackingTarget }
  | .setTransportTime transportTime => { m with transportTime }
  | .setVehicle vehicle => { m with vehicle }
  | .setRotation rotation => { m with rotation }
  | .onLiving operation => { m with living := m.living.map (·.apply operation) }

/-- A block that starts empty, or as that of a living object, and is then changed by operations. -/
def build (living : Option (Kinematics × List Living.Operation)) (operations : List Operation) :
    Movement :=
  let start : Movement :=
    match living with
    | some made => .ofLiving (Living.build made.1 made.2)
    | none => {}
  operations.foldl apply start

/-! ## Regions exclude each other -/

/-- The object is in one region at most. -/
structure Exclusive (m : Movement) : Prop where
  living_carried : m.living = none ∨ m.carried = none
  living_stationary : m.living = none ∨ m.stationary = none
  carried_stationary : m.carried = none ∨ m.stationary = none

namespace Exclusive

variable {m : Movement}

theorem empty : Exclusive {} := ⟨.inl rfl, .inl rfl, .inl rfl⟩

theorem setLiving (h : m.Exclusive) (living : Option Living) : (m.setLiving living).Exclusive := by
  cases living with
  | some l => exact ⟨.inr rfl, .inr rfl, .inl rfl⟩
  | none => exact ⟨.inl rfl, .inl rfl, h.carried_stationary⟩

theorem setCarried (h : m.Exclusive) (position : Option CarriedPosition) :
    (m.setCarried position).Exclusive := by
  cases position with
  | some place => exact ⟨.inl rfl, .inl rfl, .inr rfl⟩
  | none => exact ⟨.inr rfl, h.living_stationary, .inl rfl⟩

theorem setStationary (h : m.Exclusive) (pose : Option Pose) :
    (m.setStationary pose).Exclusive := by
  cases pose with
  | some pose => exact ⟨.inl rfl, .inl rfl, .inl rfl⟩
  | none => exact ⟨h.living_carried, .inr rfl, .inr rfl⟩

theorem apply (h : m.Exclusive) (operation : Operation) : (m.apply operation).Exclusive := by
  cases operation with
  | setLiving living => exact h.setLiving _
  | setCarried position => exact h.setCarried position
  | setStationary pose => exact h.setStationary pose
  | onLiving operation =>
    have hliving : m.living = none → m.living.map (·.apply operation) = none :=
      Option.map_eq_none_iff.2
    exact ⟨h.living_carried.imp_left hliving, h.living_stationary.imp_left hliving,
      h.carried_stationary⟩
  | _ => exact ⟨h.living_carried, h.living_stationary, h.carried_stationary⟩

/-- However a block came about, the object is in one region at most. -/
theorem build (living : Option (Kinematics × List Living.Operation))
    (operations : List Operation) : (Movement.build living operations).Exclusive := by
  refine List.foldlRecOn operations Movement.apply ?_ fun _ h operation _ => h.apply operation
  cases living with
  | none => exact empty
  | some made => exact empty.setLiving _

theorem count_le_one (h : m.Exclusive) :
    [m.living.isSome, m.carried.isSome, m.stationary.isSome].count true ≤ 1 := by
  have hcount : ∀ a b c : Bool, a = false ∨ b = false → a = false ∨ c = false →
      b = false ∨ c = false → [a, b, c].count true ≤ 1 := by decide
  exact hcount _ _ _
    (h.living_carried.imp (congrArg Option.isSome) (congrArg Option.isSome))
    (h.living_stationary.imp (congrArg Option.isSome) (congrArg Option.isSome))
    (h.carried_stationary.imp (congrArg Option.isSome) (congrArg Option.isSome))

end Exclusive

/-! ## Living regions announce their data -/

/-- The flags of a living region announce its data. -/
def Announced (m : Movement) : Prop := ∀ l, m.living = some l → l.Announced

namespace Announced

variable {m : Movement}

/-- A living region that stays or is taken away. -/
theorem of_living (h : m.Announced) {m' : Movement}
    (hliving : m'.living = none ∨ m'.living = m.living) : m'.Announced := by
  intro l hl
  rcases hliving with hnone | hsame
  · rw [hnone] at hl
    cases hl
  · exact h l (hsame ▸ hl)

theorem apply (h : m.Announced) (operation : Operation) : (m.apply operation).Announced := by
  cases operation with
  | setLiving living =>
    cases living with
    | some made =>
      rintro l ⟨⟩
      exact .build made.1 made.2
    | none => rintro l ⟨⟩
  | setCarried position =>
    refine h.of_living ?_
    cases position with
    | some place => exact .inl rfl
    | none => exact .inr rfl
  | setStationary pose =>
    refine h.of_living ?_
    cases pose with
    | some pose => exact .inl rfl
    | none => exact .inr rfl
  | onLiving operation =>
    intro l hl
    obtain ⟨before, hbefore, rfl⟩ := Option.map_eq_some_iff.1 hl
    exact (h before hbefore).apply operation
  | _ => exact h

/-- However a block came about, the flags of its living region announce the data of that region. -/
theorem build (living : Option (Kinematics × List Living.Operation))
    (operations : List Operation) : (Movement.build living operations).Announced := by
  refine List.foldlRecOn operations Movement.apply ?_ fun _ h operation _ => h.apply operation
  cases living with
  | none => rintro l ⟨⟩
  | some made =>
    rintro l ⟨⟩
    exact .build made.1 made.2

end Announced

/-! ## Flags of blocks -/

theorem meets_flags (m : Movement) (c : UpdateFlags) :
    m.flags.meets c =
      ((m.isSelf && UpdateFlags.self.meets c)
      || (m.living.isSome && UpdateFlags.living.meets c)
      || (m.carried.isSome && UpdateFlags.position.meets c)
      || (m.stationary.isSome && UpdateFlags.stationaryPosition.meets c)
      || (m.highGuid.isSome && UpdateFlags.highGuid.meets c)
      || (m.lowGuid.isSome && UpdateFlags.lowGuid.meets c)
      || (m.attackingTarget.isSome && UpdateFlags.hasAttackingTarget.meets c)
      || (m.transportTime.isSome && UpdateFlags.transport.meets c)
      || (m.vehicle.isSome && UpdateFlags.vehicle.meets c)
      || (m.rotation.isSome && UpdateFlags.rotation.meets c)) := by
  simp only [flags, meets_union, meets_gate]

/-- The flags that have a meaning. -/
def known : UpdateFlags :=
  UpdateFlags.living ∪ UpdateFlags.position ∪ UpdateFlags.stationaryPosition ∪ UpdateFlags.self
    ∪ UpdateFlags.highGuid ∪ UpdateFlags.lowGuid ∪ UpdateFlags.hasAttackingTarget
    ∪ UpdateFlags.transport ∪ UpdateFlags.vehicle ∪ UpdateFlags.rotation

/-- The flags are those of what is there. -/
structure Flagged (m : Movement) : Prop where
  self : m.flags.meets UpdateFlags.self = m.isSelf
  living : m.flags.meets UpdateFlags.living = m.living.isSome
  position : m.flags.meets UpdateFlags.position = m.carried.isSome
  stationary : m.flags.meets UpdateFlags.stationaryPosition = m.stationary.isSome
  highGuid : m.flags.meets UpdateFlags.highGuid = m.highGuid.isSome
  lowGuid : m.flags.meets UpdateFlags.lowGuid = m.lowGuid.isSome
  attackingTarget : m.flags.meets UpdateFlags.hasAttackingTarget = m.attackingTarget.isSome
  transport : m.flags.meets UpdateFlags.transport = m.transportTime.isSome
  vehicle : m.flags.meets UpdateFlags.vehicle = m.vehicle.isSome
  rotation : m.flags.meets UpdateFlags.rotation = m.rotation.isSome
  others : m.flags ⊆ known

theorem flags_subset (m : Movement) : m.flags ⊆ known := by
  repeat' apply union_subset
  all_goals exact gate_subset (by decide)

/-- Each flag announces data of its own kind, since no two kinds share a flag. -/
theorem Flagged.of_movement (m : Movement) : m.Flagged := by
  constructor
  case others => exact m.flags_subset
  all_goals
    rw [meets_flags]
    simp [meets, UpdateFlags.self, UpdateFlags.living, UpdateFlags.position,
      UpdateFlags.stationaryPosition, UpdateFlags.highGuid, UpdateFlags.lowGuid,
      UpdateFlags.hasAttackingTarget, UpdateFlags.transport, UpdateFlags.vehicle,
      UpdateFlags.rotation]

end Movement

end ObjectSync
