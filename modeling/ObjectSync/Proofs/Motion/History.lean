import ObjectSync.Proofs.Motion.Reading
import ObjectSync.Proofs.Runs

/-!
# Movement as its operations left it

Flags and data of a movement block are kept apart, and each operation changes a few of them. What
they are in the end can be read off the operations: a piece of data is what its last operation gave,
unless a later one that excludes it took it away, and a flag that announces nothing is there if the
last operation on it put it in (`Living.Reflects`, `Movement.Reflects`).

**`Movement.reflects_build`** says so of every region and every block that operations can make, with
the flags beside the data: whatever came before, they announce what is there and nothing else. Data
that exclude each other are never both there, which every operation keeps (`Living.Exclusive.build`,
`Movement.Exclusive.build`).
-/

namespace ObjectSync

/-! ## Living regions -/

namespace Living

namespace Operation

def interpolated? : Operation → Option (Option UInt32)
  | setInterpolated time => some time
  | _ => none

def passenger? : Operation → Option (Option Passenger)
  | setPassenger seat => some seat
  | _ => none

def swimming? : Operation → Option (Option Single)
  | setSwimming pitch => some pitch
  | _ => none

def flying? : Operation → Option (Option Single)
  | setFlying pitch => some pitch
  | _ => none

def alwaysAllowPitching? : Operation → Option (Option Single)
  | setAlwaysAllowPitching pitch => some pitch
  | _ => none

def fall? : Operation → Option (Option Fall)
  | setFalling fall => some fall
  | _ => none

def elevation? : Operation → Option (Option Single)
  | setElevation elevation => some elevation
  | _ => none

def spline? : Operation → Option (Option Spline)
  | setSpline spline => some spline
  | _ => none

/-- The angle that one of the three operations on the pitch was given. -/
def pitch? : Operation → Option Single
  | setSwimming pitch | setFlying pitch | setAlwaysAllowPitching pitch => pitch
  | _ => none

/-- The time of interpolation that the operation leaves, if it decides on it. A seat takes it
away. -/
def timeLeft? : Operation → Option (Option UInt32)
  | setPassenger (some _) => some none
  | operation => operation.interpolated?

/-- The seat that the operation leaves, if it decides on it. Interpolation takes it away. -/
def seatLeft? : Operation → Option (Option Passenger)
  | setInterpolated (some _) => some none
  | operation => operation.passenger?

/-- The flags after the operation, when it is one on flags. -/
def plain (flags : LivingFlags) : Operation → LivingFlags
  | insertFlags added => flags ∪ added
  | removeFlags taken => flags \ taken
  | _ => flags

end Operation

/-- The flags that operations on flags alone would leave. -/
def plainFlags (operations : List Operation) : LivingFlags := operations.foldl Operation.plain ∅

/-- The region is what the operations made of it. -/
structure Reflects (l : Living) (operations : List Operation) : Prop where
  /-- The flags that announce data are those of the data that are there. -/
  announced : l.Announced
  /-- Of the flags that share the pitch, each is there if it was last set. -/
  swimming : l.flags.meets LivingFlags.swimming =
    (lastArg Operation.swimming? operations).join.isSome
  flying : l.flags.meets LivingFlags.flying = (lastArg Operation.flying? operations).join.isSome
  alwaysAllowPitching : l.flags.meets LivingFlags.alwaysAllowPitching =
    (lastArg Operation.alwaysAllowPitching? operations).join.isSome
  /-- The other flags are those that operations on flags left. -/
  plain : l.flags \ LivingFlags.payload = plainFlags operations \ LivingFlags.payload
  /-- The pitch is the angle given last, by whichever of the three operations. -/
  pitch : ∀ angle, l.pitch = some angle → lastArg Operation.pitch? operations = some angle
  /-- The object is not moved by interpolation and seated as well. -/
  exclusive : l.interpolated = none ∨ l.passenger = none
  interpolated : ∀ time, l.interpolated = some time →
    lastArg Operation.interpolated? operations = some (some time)
  passenger : ∀ seat, l.passenger = some seat →
    lastArg Operation.passenger? operations = some (some seat)
  /-- The time of interpolation is there unless it was cleared or a seat came later. -/
  timeLeft : l.interpolated = (lastArg Operation.timeLeft? operations).join
  seatLeft : l.passenger = (lastArg Operation.seatLeft? operations).join
  fall : l.fall = (lastArg Operation.fall? operations).join
  elevation : l.elevation = (lastArg Operation.elevation? operations).join
  spline : l.spline = (lastArg Operation.spline? operations).join

section Steps

open FlagSet

variable (l : Living) (operation : Operation)

/-! ### Data -/

/-- Fall, elevation and spline change with their own operations alone. -/
theorem apply_eq :
    l.apply operation = { l.apply operation with
      fall := operation.fall?.getD l.fall
      elevation := operation.elevation?.getD l.elevation
      spline := operation.spline?.getD l.spline } := by
  cases operation with
  | setInterpolated time => cases time <;> rfl
  | setPassenger seat => cases seat <;> rfl
  | _ => rfl

/-- Each way to go with a transport is left by the operation as its argument says. -/
theorem transport_apply :
    (l.apply operation).interpolated = operation.timeLeft?.getD l.interpolated ∧
      (l.apply operation).passenger = operation.seatLeft?.getD l.passenger := by
  cases operation with
  | setInterpolated time => cases time <;> exact ⟨rfl, rfl⟩
  | setPassenger seat => cases seat <;> exact ⟨rfl, rfl⟩
  | _ => exact ⟨rfl, rfl⟩

/-- An angle that is there after an operation was given by it, or was there before. -/
theorem pitch_apply {angle : Single} (h : (l.apply operation).pitch = some angle) :
    operation.pitch?.or l.pitch = some angle := by
  have setPitch (flag : LivingFlags) (pitch : Option Single)
      (h : (l.setPitch flag pitch).pitch = some angle) : pitch.or l.pitch = some angle := by
    cases pitch with
    | some given => exact h
    | none =>
      simp only [Living.setPitch] at h
      split at h
      · exact h
      · cases h
  cases operation with
  | setInterpolated time => cases time <;> exact h
  | setPassenger seat => cases seat <;> exact h
  | setSwimming pitch | setFlying pitch | setAlwaysAllowPitching pitch => exact setPitch _ pitch h
  | _ => exact h

/-! ### Flags -/

/-- The flags that the operation decides on, of those that announce data. -/
def Operation.decides : Operation → LivingFlags
  | setInterpolated _ | setPassenger _ =>
    LivingFlags.transportInterpolatedMovement ∪ LivingFlags.onTransport
  | setSwimming _ => LivingFlags.swimming
  | setFlying _ => LivingFlags.flying
  | setAlwaysAllowPitching _ => LivingFlags.alwaysAllowPitching
  | setFalling _ => LivingFlags.falling
  | setElevation _ => LivingFlags.splineElevation
  | setSpline _ => LivingFlags.splineEnabled
  | insertFlags _ | removeFlags _ | setKinematics _ => ∅

/-- Among the flags that announce data, an operation leaves those that it does not decide on. -/
theorem meets_flags_apply {c : LivingFlags} (hc : c ⊆ LivingFlags.payload)
    (hdecides : operation.decides.meets c = false) :
    (l.apply operation).flags.meets c = l.flags.meets c := by
  cases operation with
  | insertFlags flags => exact meets_flags_insertFlags hc flags
  | removeFlags flags => exact meets_flags_removeFlags hc flags
  | setKinematics kinematics => rfl
  | setInterpolated time => exact meets_flags_setInterpolated hdecides time
  | setPassenger seat => exact meets_flags_setPassenger hdecides seat
  | _ => exact meets_put_of_disjoint hdecides

/-- Of the flags that share the pitch, one is there exactly when it was given an angle last. -/
theorem meets_pitchFlag_apply {flag : LivingFlags} (hpayload : flag ⊆ LivingFlags.payload)
    (hself : flag.meets flag = true) {given : Operation → Option (Option Single)}
    (hsome : ∀ pitch, given operation = some pitch → l.apply operation = l.setPitch flag pitch)
    (hnone : given operation = none → operation.decides.meets flag = false) :
    (l.apply operation).flags.meets flag =
      ((given operation).map Option.isSome).getD (l.flags.meets flag) := by
  cases hgiven : given operation with
  | none => exact meets_flags_apply l operation hpayload (hnone hgiven)
  | some pitch =>
    rw [hsome pitch hgiven]
    exact meets_put_self hself

theorem swimming_apply :
    (l.apply operation).flags.meets LivingFlags.swimming =
      (operation.swimming?.map Option.isSome).getD (l.flags.meets LivingFlags.swimming) := by
  refine meets_pitchFlag_apply l operation (by decide) (by decide) (fun pitch h => ?_) fun h => ?_
  · cases operation <;> cases h
    rfl
  · cases operation with
    | setSwimming => cases h
    | _ => simp only [Operation.decides]; decide

theorem flying_apply :
    (l.apply operation).flags.meets LivingFlags.flying =
      (operation.flying?.map Option.isSome).getD (l.flags.meets LivingFlags.flying) := by
  refine meets_pitchFlag_apply l operation (by decide) (by decide) (fun pitch h => ?_) fun h => ?_
  · cases operation <;> cases h
    rfl
  · cases operation with
    | setFlying => cases h
    | _ => simp only [Operation.decides]; decide

theorem alwaysAllowPitching_apply :
    (l.apply operation).flags.meets LivingFlags.alwaysAllowPitching =
      (operation.alwaysAllowPitching?.map Option.isSome).getD
        (l.flags.meets LivingFlags.alwaysAllowPitching) := by
  refine meets_pitchFlag_apply l operation (by decide) (by decide) (fun pitch h => ?_) fun h => ?_
  · cases operation <;> cases h
    rfl
  · cases operation with
    | setAlwaysAllowPitching => cases h
    | _ => simp only [Operation.decides]; decide

/-- Outside the flags that announce data, an operation changes what it says it changes. -/
theorem sdiff_payload_apply :
    (l.apply operation).flags \ LivingFlags.payload =
      operation.plain l.flags \ LivingFlags.payload := by
  -- Bit by bit: what an operation with data changes lies in `payload`, and bit `i` does not.
  refine sdiff_eq_sdiff_iff.2 fun i hi => ?_
  have apart {c : LivingFlags} (hc : c ⊆ LivingFlags.payload) : c.bits.getLsbD i = false := by
    rw [← Bool.not_eq_true] at hi ⊢
    exact fun hset => hi (subset_iff.1 hc i hset)
  have hinterpolated := apart (c := LivingFlags.transportInterpolatedMovement) (by decide)
  have htransport := apart (c := LivingFlags.onTransport) (by decide)
  cases operation with
  | insertFlags flags =>
    show (l.flags ∪ (flags \ LivingFlags.payload)).bits.getLsbD i = (l.flags ∪ flags).bits.getLsbD i
    simp only [getLsbD_union, getLsbD_sdiff, hi, Bool.not_false, Bool.and_true]
  | removeFlags flags =>
    show (l.flags \ (flags \ LivingFlags.payload)).bits.getLsbD i =
      (l.flags \ flags).bits.getLsbD i
    simp only [getLsbD_sdiff, hi, Bool.not_false, Bool.and_true]
  | setKinematics kinematics => rfl
  | setInterpolated time =>
    simp only [apply, setInterpolated, Operation.plain]
    split
    · rw [getLsbD_sdiff, htransport, Bool.not_false, Bool.and_true,
        getLsbD_put_of_not hinterpolated]
    · rw [getLsbD_put_of_not hinterpolated]
  | setPassenger seat =>
    simp only [apply, setPassenger, Operation.plain]
    split
    · rw [getLsbD_sdiff, hinterpolated, Bool.not_false, Bool.and_true,
        getLsbD_put_of_not htransport]
    · rw [getLsbD_put_of_not htransport]
  | _ => exact getLsbD_put_of_not (apart (by decide))

/-- Sets that agree outside the flags that announce data go on to agree there. -/
theorem plain_congr {flags others : LivingFlags}
    (h : flags \ LivingFlags.payload = others \ LivingFlags.payload) :
    operation.plain flags \ LivingFlags.payload =
      operation.plain others \ LivingFlags.payload := by
  rw [sdiff_eq_sdiff_iff] at h ⊢
  intro i hi
  cases operation with
  | insertFlags added =>
    show (flags ∪ added).bits.getLsbD i = (others ∪ added).bits.getLsbD i
    rw [getLsbD_union, getLsbD_union, h i hi]
  | removeFlags taken =>
    show (flags \ taken).bits.getLsbD i = (others \ taken).bits.getLsbD i
    rw [getLsbD_sdiff, getLsbD_sdiff, h i hi]
  | _ => exact h i hi

end Steps

/-! ### Runs -/

section Runs

variable (kinematics : Kinematics) (operations : List Operation)

theorem build_concat (operation : Operation) :
    build kinematics (operations ++ [operation]) =
      (build kinematics operations).apply operation := by
  rw [build, List.foldl_append]
  rfl

/-- Data that every operation gives, takes away or leaves are what the last one gave. -/
theorem build_eq_lastArg {α : Type} {arg : Operation → Option (Option α)}
    (view : Living → Option α)
    (hstep : ∀ l operation, view (l.apply operation) = (arg operation).getD (view l))
    (hstart : view { kinematics } = none) :
    view (build kinematics operations) = (lastArg arg operations).join := by
  rw [build, foldl_eq_lastArg view hstep, hstart]
  cases lastArg arg operations <;> rfl

theorem meets_build {flag : LivingFlags} {given : Operation → Option (Option Single)}
    (hstep : ∀ (l : Living) operation, (l.apply operation).flags.meets flag =
      ((given operation).map Option.isSome).getD (l.flags.meets flag)) :
    (build kinematics operations).flags.meets flag =
      (lastArg given operations).join.isSome := by
  have hlast :=
    foldl_eq_lastArg (fun l : Living => l.flags.meets flag) hstep { kinematics } operations
  have hstart : (∅ : LivingFlags).meets flag = false := FlagSet.meets_empty
  rw [lastArg_map, hstart] at hlast
  rw [build, hlast]
  cases lastArg given operations <;> rfl

theorem sdiff_payload_build :
    (build kinematics operations).flags \ LivingFlags.payload =
      plainFlags operations \ LivingFlags.payload := by
  induction operations using List.reverseRecOn with
  | nil => rfl
  | append_singleton operations operation ih =>
    rw [build_concat, sdiff_payload_apply, plain_congr operation ih, plainFlags, plainFlags,
      List.foldl_append]
    rfl

theorem pitch_build {angle : Single} (h : (build kinematics operations).pitch = some angle) :
    lastArg Operation.pitch? operations = some angle := by
  -- An angle may stay when its flag goes, so the pitch is not what the last of its operations gave
  -- and `build_eq_lastArg` does not apply. That it was given survives each operation.
  induction operations using List.reverseRecOn with
  | nil => cases h
  | append_singleton operations operation ih =>
    rw [build_concat] at h
    have hor := pitch_apply _ operation h
    rw [lastArg_concat]
    cases hgiven : operation.pitch? with
    | some given =>
      rw [hgiven] at hor
      exact hor
    | none =>
      rw [hgiven] at hor
      exact ih hor

/-- However a region was made, it is what the operations made of it. -/
theorem Reflects.build : (build kinematics operations).Reflects operations := by
  have htime := build_eq_lastArg kinematics operations Living.interpolated
    (fun l operation => (transport_apply l operation).1) rfl
  have hseat := build_eq_lastArg kinematics operations Living.passenger
    (fun l operation => (transport_apply l operation).2) rfl
  exact {
    announced := .build kinematics operations
    swimming := meets_build kinematics operations swimming_apply
    flying := meets_build kinematics operations flying_apply
    alwaysAllowPitching := meets_build kinematics operations alwaysAllowPitching_apply
    plain := sdiff_payload_build kinematics operations
    pitch := fun angle h => pitch_build kinematics operations h
    exclusive := Exclusive.build kinematics operations
    interpolated := by
      intro time h
      refine lastArg_of_takes (fun operation => ?_) (htime.symm.trans h)
      cases operation with
      | setPassenger seat => cases seat <;> simp [Operation.timeLeft?, Operation.interpolated?]
      | _ => exact .inl rfl
    passenger := by
      intro seat h
      refine lastArg_of_takes (fun operation => ?_) (hseat.symm.trans h)
      cases operation with
      | setInterpolated time => cases time <;> simp [Operation.seatLeft?, Operation.passenger?]
      | _ => exact .inl rfl
    timeLeft := htime
    seatLeft := hseat
    fall := build_eq_lastArg kinematics operations Living.fall
      (fun l operation => congrArg Living.fall (apply_eq l operation)) rfl
    elevation := build_eq_lastArg kinematics operations Living.elevation
      (fun l operation => congrArg Living.elevation (apply_eq l operation)) rfl
    spline := build_eq_lastArg kinematics operations Living.spline
      (fun l operation => congrArg Living.spline (apply_eq l operation)) rfl }

end Runs

end Living

/-! ## Movement blocks -/

namespace Movement

namespace Operation

def self? : Operation → Option Bool
  | setSelf isSelf => some isSelf
  | _ => none

def highGuid? : Operation → Option (Option UInt32)
  | setHighGuid high => some high
  | _ => none

def lowGuid? : Operation → Option (Option UInt32)
  | setLowGuid low => some low
  | _ => none

def attackingTarget? : Operation → Option (Option Guid)
  | setAttackingTarget target => some target
  | _ => none

def transportTime? : Operation → Option (Option UInt32)
  | setTransportTime time => some time
  | _ => none

def vehicle? : Operation → Option (Option Vehicle)
  | setVehicle vehicle => some vehicle
  | _ => none

def rotation? : Operation → Option (Option UInt64)
  | setRotation rotation => some rotation
  | _ => none

/-- The place on a transport that the operation leaves, if it decides on it. Any other region takes
it away. -/
def carriedLeft? : Operation → Option (Option CarriedPosition)
  | setCarried position => some position
  | setLiving (some _) | setStationary (some _) => some none
  | _ => none

def stationaryLeft? : Operation → Option (Option Pose)
  | setStationary pose => some pose
  | setLiving (some _) | setCarried (some _) => some none
  | _ => none

/-- How the living region is made after the operation, when it was made as told before. -/
def livingMade (made : Option (Kinematics × List Living.Operation)) :
    Operation → Option (Kinematics × List Living.Operation)
  | setLiving living => living
  | setCarried (some _) | setStationary (some _) => none
  | onLiving operation => made.map fun made => (made.1, made.2 ++ [operation])
  | _ => made

end Operation

/-- How the living region is made after several operations. Changes in place go on where the making
of the region ended. -/
def livingMade (living : Option (Kinematics × List Living.Operation)) (operations : List Operation) :
    Option (Kinematics × List Living.Operation) :=
  operations.foldl Operation.livingMade living

/-- The block is what the operations made of one that started with the living region told. -/
structure Reflects (m : Movement) (start : Option (Kinematics × List Living.Operation))
    (operations : List Operation) : Prop where
  flagged : m.Flagged
  /-- The object is in one region at most. -/
  exclusive : [m.living.isSome, m.carried.isSome, m.stationary.isSome].count true ≤ 1
  /-- A living region is what its own operations made of it, up to those in place. -/
  living : ∀ l, m.living = some l ↔ ∃ made, livingMade start operations = some made ∧
    l = Living.build made.1 made.2
  carried : m.carried = (lastArg Operation.carriedLeft? operations).join
  stationary : m.stationary = (lastArg Operation.stationaryLeft? operations).join
  isSelf : m.isSelf = (lastArg Operation.self? operations).getD false
  highGuid : m.highGuid = (lastArg Operation.highGuid? operations).join
  lowGuid : m.lowGuid = (lastArg Operation.lowGuid? operations).join
  attackingTarget : m.attackingTarget = (lastArg Operation.attackingTarget? operations).join
  transportTime : m.transportTime = (lastArg Operation.transportTime? operations).join
  vehicle : m.vehicle = (lastArg Operation.vehicle? operations).join
  rotation : m.rotation = (lastArg Operation.rotation? operations).join

/-! ### Steps -/

section Steps

variable (m : Movement) (operation : Operation)

/-- What is no region changes with its own operation alone. -/
theorem apply_eq :
    m.apply operation = { m.apply operation with
      isSelf := operation.self?.getD m.isSelf
      highGuid := operation.highGuid?.getD m.highGuid
      lowGuid := operation.lowGuid?.getD m.lowGuid
      attackingTarget := operation.attackingTarget?.getD m.attackingTarget
      transportTime := operation.transportTime?.getD m.transportTime
      vehicle := operation.vehicle?.getD m.vehicle
      rotation := operation.rotation?.getD m.rotation } := by
  cases operation with
  | setLiving living => cases living <;> rfl
  | setCarried position => cases position <;> rfl
  | setStationary pose => cases pose <;> rfl
  | _ => rfl

/-- A place that is left was put in by the operation, or was there before. -/
theorem place_apply :
    (m.apply operation).carried = operation.carriedLeft?.getD m.carried ∧
      (m.apply operation).stationary = operation.stationaryLeft?.getD m.stationary := by
  cases operation with
  | setLiving living => cases living <;> exact ⟨rfl, rfl⟩
  | setCarried position => cases position <;> exact ⟨rfl, rfl⟩
  | setStationary pose => cases pose <;> exact ⟨rfl, rfl⟩
  | _ => exact ⟨rfl, rfl⟩

/-- A living region goes on to be made by its own operations. -/
theorem living_apply {made : Option (Kinematics × List Living.Operation)}
    (hmade : m.living = made.map fun made => Living.build made.1 made.2) :
    (m.apply operation).living =
      (operation.livingMade made).map fun made => Living.build made.1 made.2 := by
  cases operation with
  | setLiving living => cases living <;> rfl
  | setCarried position =>
    cases position with
    | some place => rfl
    | none => exact hmade
  | setStationary pose =>
    cases pose with
    | some pose => rfl
    | none => exact hmade
  | onLiving operation =>
    show m.living.map (·.apply operation) = _
    rw [hmade]
    cases made with
    | none => rfl
    | some made =>
      show some ((Living.build made.1 made.2).apply operation) =
        some (Living.build made.1 (made.2 ++ [operation]))
      rw [Living.build_concat]
  | _ => exact hmade

end Steps

/-! ### Runs -/

section Runs

variable (start : Option (Kinematics × List Living.Operation)) (operations : List Operation)

theorem build_concat (operation : Operation) :
    build start (operations ++ [operation]) = (build start operations).apply operation :=
  List.foldl_append

theorem build_eq_lastArg {α : Type} {arg : Operation → Option (Option α)}
    (view : Movement → Option α)
    (hstep : ∀ m operation, view (m.apply operation) = (arg operation).getD (view m))
    (hstart : view (build start []) = none) :
    view (build start operations) = (lastArg arg operations).join := by
  have hlast := foldl_eq_lastArg view hstep (build start []) operations
  rw [hstart] at hlast
  refine hlast.trans ?_
  cases lastArg arg operations <;> rfl

theorem living_build :
    (build start operations).living =
      (livingMade start operations).map fun made => Living.build made.1 made.2 := by
  induction operations using List.reverseRecOn with
  | nil => cases start <;> rfl
  | append_singleton operations operation ih =>
    have hmade : livingMade start (operations ++ [operation]) =
        operation.livingMade (livingMade start operations) := List.foldl_append
    rw [build_concat, hmade]
    exact living_apply _ operation ih

/-- Whatever the operations on it, a living region and a whole block are what they made of it: flags
and data never disagree, and of the data the last that was given is there. -/
theorem reflects_build :
    (∀ kinematics operations, (Living.build kinematics operations).Reflects operations) ∧
      ∀ start operations, (build start operations).Reflects start operations := by
  refine ⟨Living.Reflects.build, fun start operations => ?_⟩
  exact {
    flagged := .of_movement _
    exclusive := (Exclusive.build start operations).count_le_one
    living := by
      intro l
      rw [living_build, Option.map_eq_some_iff]
      exact exists_congr fun made => and_congr_right fun _ => eq_comm
    carried := build_eq_lastArg start operations Movement.carried
      (fun m operation => (place_apply m operation).1) (by cases start <;> rfl)
    stationary := build_eq_lastArg start operations Movement.stationary
      (fun m operation => (place_apply m operation).2) (by cases start <;> rfl)
    isSelf := by
      have hlast := foldl_eq_lastArg Movement.isSelf
        (fun m operation => congrArg Movement.isSelf (apply_eq m operation))
        (build start []) operations
      have hstart : (build start []).isSelf = false := by cases start <;> rfl
      rwa [hstart] at hlast
    highGuid := build_eq_lastArg start operations Movement.highGuid
      (fun m operation => congrArg Movement.highGuid (apply_eq m operation))
      (by cases start <;> rfl)
    lowGuid := build_eq_lastArg start operations Movement.lowGuid
      (fun m operation => congrArg Movement.lowGuid (apply_eq m operation))
      (by cases start <;> rfl)
    attackingTarget := build_eq_lastArg start operations Movement.attackingTarget
      (fun m operation => congrArg Movement.attackingTarget (apply_eq m operation))
      (by cases start <;> rfl)
    transportTime := build_eq_lastArg start operations Movement.transportTime
      (fun m operation => congrArg Movement.transportTime (apply_eq m operation))
      (by cases start <;> rfl)
    vehicle := build_eq_lastArg start operations Movement.vehicle
      (fun m operation => congrArg Movement.vehicle (apply_eq m operation))
      (by cases start <;> rfl)
    rotation := build_eq_lastArg start operations Movement.rotation
      (fun m operation => congrArg Movement.rotation (apply_eq m operation))
      (by cases start <;> rfl) }

end Runs

end Movement

end ObjectSync
