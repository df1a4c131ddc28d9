import ObjectSync.Motion.Living
import ObjectSync.Proofs.Motion.FlagSet

/-!
# What operations keep of living regions

A receiver knows of the data in a living region only by its flags, while the sender looks at the data
themselves. `Living.Announced` says that the two agree. A region starts so (`Announced.ofKinematics`)
and every operation on it keeps it so (`Announced.apply`), because operations on plain flags leave
`LivingFlags.payload` alone and those on data move flag and data together.

The time of interpolation and the seat are kept apart, and nothing in a region forbids both. That
operations never leave both (`Living.Exclusive`) is kept by each of them in the same way.
-/

namespace ObjectSync.Living

inductive Operation where
  | insertFlags (flags : LivingFlags)
  | removeFlags (flags : LivingFlags)
  | setKinematics (kinematics : Kinematics)
  | setInterpolated (time : Option UInt32)
  | setPassenger (seat : Option Passenger)
  | setSwimming (pitch : Option Single)
  | setFlying (pitch : Option Single)
  | setAlwaysAllowPitching (pitch : Option Single)
  | setFalling (fall : Option Fall)
  | setElevation (elevation : Option Single)
  | setSpline (spline : Option Spline)
deriving DecidableEq, Repr

def apply (l : Living) : Operation → Living
  | .insertFlags flags => (l.insertFlags flags).value
  | .removeFlags flags => l.removeFlags flags
  | .setKinematics kinematics => { l with kinematics }
  | .setInterpolated time => l.setInterpolated time
  | .setPassenger seat => l.setPassenger seat
  | .setSwimming pitch => l.setSwimming pitch
  | .setFlying pitch => l.setFlying pitch
  | .setAlwaysAllowPitching pitch => l.setAlwaysAllowPitching pitch
  | .setFalling fall => l.setFalling fall
  | .setElevation elevation => l.setElevation elevation
  | .setSpline spline => l.setSpline spline

/-- A region made from what every region has, and then changed by operations. -/
def build (kinematics : Kinematics) (operations : List Operation) : Living :=
  operations.foldl apply { kinematics }

section Flags

open FlagSet

variable {l : Living} {c : LivingFlags}

/-- Flags that announce data are neither put in nor taken out as plain flags. -/
theorem meets_flags_insertFlags (hc : c ⊆ LivingFlags.payload) (flags : LivingFlags) :
    (l.insertFlags flags).value.flags.meets c = l.flags.meets c := by
  show (l.flags ∪ (flags \ LivingFlags.payload)).meets c = _
  rw [meets_union, meets_sdiff_of_subset hc, Bool.or_false]

theorem meets_flags_removeFlags (hc : c ⊆ LivingFlags.payload) (flags : LivingFlags) :
    (l.removeFlags flags).flags.meets c = l.flags.meets c :=
  meets_sdiff_of_disjoint (meets_sdiff_of_subset hc)

/-- Going with a transport, in either way, decides on its two flags alone. -/
theorem meets_flags_setInterpolated (hc : (LivingFlags.transportInterpolatedMovement ∪
    LivingFlags.onTransport).meets c = false) (time : Option UInt32) :
    (l.setInterpolated time).flags.meets c = l.flags.meets c := by
  rw [meets_union, Bool.or_eq_false_iff] at hc
  rw [setInterpolated]
  split
  · exact (meets_sdiff_of_disjoint hc.2).trans (meets_put_of_disjoint hc.1)
  · exact meets_put_of_disjoint hc.1

theorem meets_flags_setPassenger (hc : (LivingFlags.transportInterpolatedMovement ∪
    LivingFlags.onTransport).meets c = false) (seat : Option Passenger) :
    (l.setPassenger seat).flags.meets c = l.flags.meets c := by
  rw [meets_union, Bool.or_eq_false_iff] at hc
  rw [setPassenger]
  split
  · exact (meets_sdiff_of_disjoint hc.1).trans (meets_put_of_disjoint hc.2)
  · exact meets_put_of_disjoint hc.2

end Flags

/-- The flags that announce data are those of the data that are there. -/
structure Announced (l : Living) : Prop where
  interpolated :
    l.flags.meets LivingFlags.transportInterpolatedMovement = l.interpolated.isSome
  passenger : l.flags.meets LivingFlags.onTransport = l.passenger.isSome
  pitch : l.flags.meets LivingFlags.pitch = l.pitch.isSome
  fall : l.flags.meets LivingFlags.falling = l.fall.isSome
  elevation : l.flags.meets LivingFlags.splineElevation = l.elevation.isSome
  spline : l.flags.meets LivingFlags.splineEnabled = l.spline.isSome

namespace Announced

open FlagSet

variable {l : Living}

theorem ofKinematics (kinematics : Kinematics) : Announced { kinematics } :=
  ⟨meets_empty, meets_empty, meets_empty, meets_empty, meets_empty, meets_empty⟩

/-- Other flags among those that announce nothing leave the region announced. -/
theorem withFlags (h : Announced l) {flags : LivingFlags}
    (hflags : ∀ c ⊆ LivingFlags.payload, flags.meets c = l.flags.meets c) :
    Announced { l with flags } where
  interpolated := (hflags _ (by decide)).trans h.interpolated
  passenger := (hflags _ (by decide)).trans h.passenger
  pitch := (hflags _ (by decide)).trans h.pitch
  fall := (hflags _ (by decide)).trans h.fall
  elevation := (hflags _ (by decide)).trans h.elevation
  spline := (hflags _ (by decide)).trans h.spline

theorem insertFlags (h : Announced l) (flags : LivingFlags) :
    Announced (l.insertFlags flags).value :=
  h.withFlags fun _ hc => meets_flags_insertFlags hc flags

theorem removeFlags (h : Announced l) (flags : LivingFlags) : Announced (l.removeFlags flags) :=
  h.withFlags fun _ hc => meets_flags_removeFlags hc flags

/-! ## Operations on data -/

/-- Going with a transport decides on its two flags; the others stay. -/
theorem withTransport (h : Announced l) {flags : LivingFlags} {interpolated : Option UInt32}
    {passenger : Option Passenger}
    (hflags : ∀ c, (LivingFlags.transportInterpolatedMovement ∪ LivingFlags.onTransport).meets c =
      false → flags.meets c = l.flags.meets c)
    (hinterpolated : flags.meets LivingFlags.transportInterpolatedMovement = interpolated.isSome)
    (hpassenger : flags.meets LivingFlags.onTransport = passenger.isSome) :
    Announced { l with flags, interpolated, passenger } where
  interpolated := hinterpolated
  passenger := hpassenger
  pitch := (hflags _ (by decide)).trans h.pitch
  fall := (hflags _ (by decide)).trans h.fall
  elevation := (hflags _ (by decide)).trans h.elevation
  spline := (hflags _ (by decide)).trans h.spline

theorem setInterpolated (h : Announced l) (time : Option UInt32) :
    Announced (l.setInterpolated time) := by
  have hflags (c : LivingFlags) (hc : (LivingFlags.transportInterpolatedMovement ∪
      LivingFlags.onTransport).meets c = false) := meets_flags_setInterpolated (l := l) hc time
  cases time with
  | some time =>
    refine h.withTransport hflags ?_ (meets_sdiff_of_subset (by decide))
    exact (meets_sdiff_of_disjoint (by decide)).trans (meets_put_self (by decide))
  | none =>
    refine h.withTransport hflags (meets_put_self (by decide)) ?_
    exact (meets_put_of_disjoint (by decide)).trans h.passenger

theorem setPassenger (h : Announced l) (seat : Option Passenger) :
    Announced (l.setPassenger seat) := by
  have hflags (c : LivingFlags) (hc : (LivingFlags.transportInterpolatedMovement ∪
      LivingFlags.onTransport).meets c = false) := meets_flags_setPassenger (l := l) hc seat
  cases seat with
  | some seat =>
    refine h.withTransport hflags (meets_sdiff_of_subset (by decide)) ?_
    exact (meets_sdiff_of_disjoint (by decide)).trans (meets_put_self (by decide))
  | none =>
    refine h.withTransport hflags ?_ (meets_put_self (by decide))
    exact (meets_put_of_disjoint (by decide)).trans h.interpolated

/-- One flag of the three that share the pitch comes or goes; while any of them is left, so is the
pitch. -/
theorem setPitch (h : Announced l) {flag : LivingFlags} (hflag : flag.meets LivingFlags.pitch = true)
    (hother : flag.meets (LivingFlags.payload \ LivingFlags.pitch) = false)
    (pitch : Option Single) : Announced (l.setPitch flag pitch) := by
  have hkept {c : LivingFlags} (hc : c ⊆ LivingFlags.payload \ LivingFlags.pitch) :
      (l.setPitch flag pitch).flags.meets c = l.flags.meets c :=
      meets_put_of_disjoint (meets_of_subset hother hc)
  refine ⟨(hkept (by decide)).trans h.interpolated, (hkept (by decide)).trans h.passenger, ?_,
    (hkept (by decide)).trans h.fall, (hkept (by decide)).trans h.elevation,
    (hkept (by decide)).trans h.spline⟩
  cases pitch with
  | some angle =>
    show (l.flags ∪ flag).meets LivingFlags.pitch = true
    rw [meets_union, hflag, Bool.or_true]
  | none =>
    have hpitch : (l.setPitch flag none).pitch =
        if (l.flags \ flag).meets LivingFlags.pitch then l.pitch else none := rfl
    show (l.flags \ flag).meets LivingFlags.pitch = _
    rw [hpitch]
    split
    · next hleft =>
      -- a pitch flag that is left now was there before, so there is a pitch
      rw [hleft, ← h.pitch, eq_comm, meets_iff]
      obtain ⟨i, hi, hc⟩ := meets_iff.1 hleft
      rw [getLsbD_sdiff, Bool.and_eq_true] at hi
      exact ⟨i, hi.1, hc⟩
    · next hnone => rw [Bool.not_eq_true] at hnone; rw [hnone]; rfl

theorem setFalling (h : Announced l) (fall : Option Fall) : Announced (l.setFalling fall) := by
  have hkept {c : LivingFlags} (hc : LivingFlags.falling.meets c = false) :
      (l.setFalling fall).flags.meets c = l.flags.meets c := meets_put_of_disjoint hc
  exact ⟨(hkept (by decide)).trans h.interpolated, (hkept (by decide)).trans h.passenger,
    (hkept (by decide)).trans h.pitch, meets_put_self (by decide),
    (hkept (by decide)).trans h.elevation, (hkept (by decide)).trans h.spline⟩

theorem setElevation (h : Announced l) (elevation : Option Single) :
    Announced (l.setElevation elevation) := by
  have hkept {c : LivingFlags} (hc : LivingFlags.splineElevation.meets c = false) :
      (l.setElevation elevation).flags.meets c = l.flags.meets c := meets_put_of_disjoint hc
  exact ⟨(hkept (by decide)).trans h.interpolated, (hkept (by decide)).trans h.passenger,
    (hkept (by decide)).trans h.pitch, (hkept (by decide)).trans h.fall,
    meets_put_self (by decide), (hkept (by decide)).trans h.spline⟩

theorem setSpline (h : Announced l) (spline : Option Spline) : Announced (l.setSpline spline) := by
  have hkept {c : LivingFlags} (hc : LivingFlags.splineEnabled.meets c = false) :
      (l.setSpline spline).flags.meets c = l.flags.meets c := meets_put_of_disjoint hc
  exact ⟨(hkept (by decide)).trans h.interpolated, (hkept (by decide)).trans h.passenger,
    (hkept (by decide)).trans h.pitch, (hkept (by decide)).trans h.fall,
    (hkept (by decide)).trans h.elevation, meets_put_self (by decide)⟩

/-! ## Runs -/

theorem apply (h : Announced l) (operation : Operation) : Announced (l.apply operation) := by
  cases operation with
  | insertFlags flags => exact h.insertFlags flags
  | removeFlags flags => exact h.removeFlags flags
  | setKinematics kinematics => exact ⟨h.1, h.2, h.3, h.4, h.5, h.6⟩
  | setInterpolated time => exact h.setInterpolated time
  | setPassenger seat => exact h.setPassenger seat
  | setSwimming pitch => exact h.setPitch (by decide) (by decide) pitch
  | setFlying pitch => exact h.setPitch (by decide) (by decide) pitch
  | setAlwaysAllowPitching pitch => exact h.setPitch (by decide) (by decide) pitch
  | setFalling fall => exact h.setFalling fall
  | setElevation elevation => exact h.setElevation elevation
  | setSpline spline => exact h.setSpline spline

theorem foldl (h : Announced l) (operations : List Operation) :
    Announced (operations.foldl Living.apply l) := by
  induction operations generalizing l with
  | nil => exact h
  | cons operation rest ih => exact ih (h.apply operation)

/-- However a region came about, its flags announce its data. -/
theorem build (kinematics : Kinematics) (operations : List Operation) :
    Announced (Living.build kinematics operations) :=
  (ofKinematics kinematics).foldl operations

end Announced

/-! ## Ways to go with a transport -/

/-- The object is not moved by interpolation and seated as well. -/
def Exclusive (l : Living) : Prop := l.interpolated = none ∨ l.passenger = none

namespace Exclusive

variable {l : Living}

/-- Setting either way clears the other, whatever was there; clearing one leaves none of it. -/
theorem setInterpolated (l : Living) (time : Option UInt32) :
    Exclusive (l.setInterpolated time) := by
  cases time with
  | some time => exact .inr rfl
  | none => exact .inl rfl

theorem setPassenger (l : Living) (seat : Option Passenger) : Exclusive (l.setPassenger seat) := by
  cases seat with
  | some seat => exact .inl rfl
  | none => exact .inr rfl

theorem apply (h : Exclusive l) (operation : Operation) : Exclusive (l.apply operation) := by
  cases operation with
  | setInterpolated time => exact setInterpolated l time
  | setPassenger seat => exact setPassenger l seat
  | _ => exact h

/-- However a region came about, the object goes with a transport in one way at most. -/
theorem build (kinematics : Kinematics) (operations : List Operation) :
    Exclusive (Living.build kinematics operations) :=
  List.foldlRecOn operations Living.apply (.inl rfl) fun _ h operation _ => h.apply operation

end Exclusive

end ObjectSync.Living
