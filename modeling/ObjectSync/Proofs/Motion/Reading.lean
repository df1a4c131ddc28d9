import ObjectSync.Proofs.Identity.Guid
import ObjectSync.Proofs.Motion.Movement

/-!
# Reading movement blocks

Nothing in a movement block is measured: a receiver finds its way by the flags that it has read. The
readers here look at nothing else. `sent` says what a block says to its receiver, and
**`Movement.reads_bytes`** that a block arrives as such, whatever follows it, if a living region is
announced by its flags and there is one region at most. Every block that operations can make is of
this kind (`Movement.reads_build`).

Of what a block holds, three things are not sent: the living flags from bit 48 on, the facing flags
that a spline had before its facing decided on them, and the nodes of a path that its count cannot
announce.
-/

namespace ObjectSync

open FlagSet

/-! ## Fixed records -/

def Position.reader : Reader Position := do
  return { x := ← Reader.u32, y := ← Reader.u32, z := ← Reader.u32 }

def Pose.reader : Reader Pose := do
  return { position := ← Position.reader, orientation := ← Reader.u32 }

def Speeds.reader : Reader Speeds := do
  return {
    walk := ← Reader.u32
    run := ← Reader.u32
    runBack := ← Reader.u32
    swim := ← Reader.u32
    swimBack := ← Reader.u32
    flight := ← Reader.u32
    flightBack := ← Reader.u32
    turnRate := ← Reader.u32
    pitchRate := ← Reader.u32 }

def Fall.reader : Reader Fall := do
  return {
    zSpeed := ← Reader.u32
    cosAngle := ← Reader.u32
    sinAngle := ← Reader.u32
    xySpeed := ← Reader.u32 }

def Passenger.reader : Reader Passenger := do
  return {
    transport := ← Guid.reader
    offset := ← Pose.reader
    timestamp := ← Reader.u32
    seat := ← Reader.u8 }

def CarriedPosition.reader : Reader CarriedPosition := do
  return {
    transport := ← Guid.reader
    position := ← Position.reader
    transportOffset := ← Position.reader
    orientation := ← Reader.u32
    corpseOrientation := ← Reader.u32 }

def Vehicle.reader : Reader Vehicle := do
  return { id := ← Reader.u32, orientation := ← Reader.u32 }

namespace Reads

theorem position (p : Position) : Reads Position.reader p.bytes p := by
  rw [Position.bytes, List.append_assoc]
  exact (u32 p.x).bind <| (u32 p.y).bind <| (u32 p.z).last _

theorem pose (p : Pose) : Reads Pose.reader p.bytes p :=
  (position p.position).bind <| (u32 p.orientation).last _

theorem speeds (s : Speeds) : Reads Speeds.reader s.bytes s := by
  simp only [Speeds.bytes, List.append_assoc]
  exact (u32 s.walk).bind <| (u32 s.run).bind <| (u32 s.runBack).bind <| (u32 s.swim).bind <|
    (u32 s.swimBack).bind <| (u32 s.flight).bind <| (u32 s.flightBack).bind <|
    (u32 s.turnRate).bind <| (u32 s.pitchRate).last _

theorem fall (f : Fall) : Reads Fall.reader f.bytes f := by
  simp only [Fall.bytes, List.append_assoc]
  exact (u32 f.zSpeed).bind <| (u32 f.cosAngle).bind <| (u32 f.sinAngle).bind <|
    (u32 f.xySpeed).last _

theorem passenger (p : Passenger) : Reads Passenger.reader p.bytes p := by
  simp only [Passenger.bytes, List.append_assoc]
  exact (guid p.transport).bind <| (pose p.offset).bind <| (u32 p.timestamp).bind <|
    (u8 p.seat).last _

theorem carriedPosition (p : CarriedPosition) : Reads CarriedPosition.reader p.bytes p := by
  simp only [CarriedPosition.bytes, List.append_assoc]
  exact (guid p.transport).bind <| (position p.position).bind <|
    (position p.transportOffset).bind <| (u32 p.orientation).bind <|
    (u32 p.corpseOrientation).last _

theorem vehicle (v : Vehicle) : Reads Vehicle.reader v.bytes v :=
  (u32 v.id).bind <| (u32 v.orientation).last _

end Reads

/-! ## Splines -/

/-- What the flags of a spline announce behind them. -/
def Facing.reader (flags : SplineFlags) : Reader Facing :=
  if flags.meets SplineFlags.finalAngle then .angle <$> Reader.u32
  else if flags.meets SplineFlags.finalTarget then .target <$> Reader.u64
  else if flags.meets SplineFlags.finalPoint then .point <$> Position.reader
  else pure .ahead

namespace Spline

def reader : Reader Spline := do
  let flags : SplineFlags := ⟨(← Reader.u32).toBitVec⟩
  let facing ← Facing.reader flags
  let timePassed ← Reader.u32
  let duration ← Reader.u32
  let id ← Reader.u32
  let durationFactor ← Reader.u32
  let nextDurationFactor ← Reader.u32
  let verticalAcceleration ← Reader.u32
  let effectStart ← Reader.u32
  let nodes ← Position.reader.counted
  let mode ← Reader.u8
  let destination ← Position.reader
  return {
    flags, facing, timePassed, duration, id, durationFactor, nextDurationFactor,
    verticalAcceleration, effectStart, nodes, mode, destination }

/-- The spline as its receiver has it: of the facing flags that of its facing, and as many nodes as
the count can tell. -/
def sent (s : Spline) : Spline :=
  { s with flags := s.wireFlags, nodes := s.nodes.take Bytes.longest }

/-- Of the facing flags, those of the facing itself are sent. -/
theorem meets_wireFlags (s : Spline) {c : SplineFlags} (hc : c ⊆ SplineFlags.facing) :
    s.wireFlags.meets c = s.facing.flag.meets c := by
  rw [wireFlags, meets_union, meets_sdiff_of_subset hc, Bool.false_or]

theorem reads_facing (s : Spline) : Reads (Facing.reader s.wireFlags) s.facing.bytes s.facing := by
  rw [Facing.reader, s.meets_wireFlags (by decide), s.meets_wireFlags (by decide),
    s.meets_wireFlags (by decide)]
  cases s.facing with
  | ahead => exact Reads.pure _
  | point p =>
    rw [Facing.flag, if_neg (by decide), if_neg (by decide), if_pos (by decide)]
    exact (Reads.position p).map Facing.point
  | target guid =>
    rw [Facing.flag, if_neg (by decide), if_pos (by decide)]
    exact (Reads.u64 guid).map Facing.target
  | angle a =>
    rw [Facing.flag, if_pos (by decide)]
    exact (Reads.u32 a).map Facing.angle

theorem reads_bytes (s : Spline) : Reads reader s.bytes.value s.sent := by
  simp only [bytes, Logged.value_append, Logged.value_pure, List.append_assoc]
  exact (Reads.u32 _).bind <| s.reads_facing.bind <| (Reads.u32 s.timePassed).bind <|
    (Reads.u32 s.duration).bind <| (Reads.u32 s.id).bind <| (Reads.u32 s.durationFactor).bind <|
    (Reads.u32 s.nextDurationFactor).bind <| (Reads.u32 s.verticalAcceleration).bind <|
    (Reads.u32 s.effectStart).bind <| (Reads.counted fun node _ => Reads.position node).bind <|
    (Reads.u8 s.mode).bind <| (Reads.position s.destination).last _

end Spline

/-! ## Living regions -/

namespace Living

def reader : Reader Living := do
  let flags : LivingFlags := ⟨(← Reader.u48).toBitVec⟩
  let timestamp ← Reader.u32
  let pose ← Pose.reader
  let interpolated ← Reader.u32.gated (flags.meets LivingFlags.transportInterpolatedMovement)
  let passenger ← Passenger.reader.gated (flags.meets LivingFlags.onTransport)
  let pitch ← Reader.u32.gated (flags.meets LivingFlags.pitch)
  let fallTime ← Reader.u32
  let fall ← Fall.reader.gated (flags.meets LivingFlags.falling)
  let elevation ← Reader.u32.gated (flags.meets LivingFlags.splineElevation)
  let speeds ← Speeds.reader
  let spline ← Spline.reader.gated (flags.meets LivingFlags.splineEnabled)
  return {
    kinematics := { timestamp, pose, fallTime, speeds }
    flags, interpolated, passenger, pitch, fall, elevation, spline }

/-- The region as its receiver has it: the flags lose what lies above the low 48. -/
def sent (l : Living) : Living :=
  { l with flags := l.flags ∩ LivingFlags.wire, spline := l.spline.map Spline.sent }

/-- The flags that arrive are the low 48. -/
theorem toBitVec_u48 (flags : LivingFlags) :
    (⟨(UInt64.ofNat ((⟨flags.bits⟩ : UInt64).toNat % 2 ^ 48)).toBitVec⟩ : LivingFlags) =
      flags ∩ LivingFlags.wire := by
  have hbits : (UInt64.ofNat (flags.bits.toNat % 2 ^ 48)).toBitVec =
      flags.bits &&& LivingFlags.wire.bits := by
    apply BitVec.eq_of_toNat_eq
    rw [BitVec.toNat_and, show LivingFlags.wire.bits.toNat = 2 ^ 48 - 1 by decide,
      Nat.and_two_pow_sub_one_eq_mod]
    show (UInt64.ofNat (flags.bits.toNat % 2 ^ 48)).toNat = _
    rw [UInt64.toNat_ofNat', Nat.mod_eq_of_lt]
    omega
  exact congrArg FlagSet.mk hbits

theorem reads_bytes {l : Living} (h : Announced l) : Reads reader l.bytes.value l.sent := by
  have hflags (c : LivingFlags) (hc : c ⊆ LivingFlags.wire) :
      (l.flags ∩ LivingFlags.wire).meets c = l.flags.meets c := meets_inter_of_subset hc
  simp only [bytes, Logged.value_append, Logged.value_pure, List.append_assoc]
  refine Reads.bind (Reads.u48 ⟨l.flags.bits⟩) ?_
  rw [toBitVec_u48]
  refine (Reads.u32 l.kinematics.timestamp).bind <| (Reads.pose l.kinematics.pose).bind ?_
  rw [hflags _ (by decide), hflags _ (by decide), hflags _ (by decide), hflags _ (by decide),
    hflags _ (by decide), hflags _ (by decide)]
  refine (Reads.gated (fun time _ => Reads.u32 time) h.interpolated).bind <|
    (Reads.gated (fun seat _ => Reads.passenger seat) h.passenger).bind <|
    (Reads.gated (fun pitch _ => Reads.u32 pitch) h.pitch).bind <|
    (Reads.u32 l.kinematics.fallTime).bind <|
    (Reads.gated (fun fall _ => Reads.fall fall) h.fall).bind <|
    (Reads.gated (fun elevation _ => Reads.u32 elevation) h.elevation).bind <|
    (Reads.speeds l.kinematics.speeds).bind ?_
  rw [h.spline, sent]
  cases l.spline with
  | none => exact (Reads.pure none).last _
  | some spline => exact (spline.reads_bytes.map some).last _

end Living

/-! ## Movement blocks -/

namespace Movement

/-- Of the regions that the flags announce, one is sent: a living one before a place on a transport,
and that before a fixed place. -/
def reader : Reader Movement := do
  let flags : UpdateFlags := ⟨(← Reader.u16).toBitVec⟩
  let isLiving := flags.meets UpdateFlags.living
  let isCarried := flags.meets UpdateFlags.position
  let living ← Living.reader.gated isLiving
  let carried ← CarriedPosition.reader.gated (!isLiving && isCarried)
  let stationary ← Pose.reader.gated
    (!isLiving && !isCarried && flags.meets UpdateFlags.stationaryPosition)
  let highGuid ← Reader.u32.gated (flags.meets UpdateFlags.highGuid)
  let lowGuid ← Reader.u32.gated (flags.meets UpdateFlags.lowGuid)
  let attackingTarget ← Guid.reader.gated (flags.meets UpdateFlags.hasAttackingTarget)
  let transportTime ← Reader.u32.gated (flags.meets UpdateFlags.transport)
  let vehicle ← Vehicle.reader.gated (flags.meets UpdateFlags.vehicle)
  let rotation ← Reader.u64.gated (flags.meets UpdateFlags.rotation)
  return {
    isSelf := flags.meets UpdateFlags.self
    living, carried, stationary, highGuid, lowGuid, attackingTarget, transportTime, vehicle,
    rotation }

/-- The block as its receiver has it. -/
def sent (m : Movement) : Movement := { m with living := m.living.map Living.sent }

variable {m : Movement}

/-- Where regions exclude each other, the one that is sent is all there are. -/
theorem regionBytes_eq (h : m.Exclusive) :
    m.regionBytes.value =
      Bytes.optional (fun l => l.bytes.value) m.living
        ++ (Bytes.optional CarriedPosition.bytes m.carried
          ++ Bytes.optional Pose.bytes m.stationary) := by
  rw [regionBytes]
  cases hliving : m.living with
  | some l =>
    have hcarried := h.living_carried.resolve_left (by rw [hliving]; exact Option.some_ne_none l)
    have hstationary :=
      h.living_stationary.resolve_left (by rw [hliving]; exact Option.some_ne_none l)
    rw [hcarried, hstationary]
    exact (List.append_nil _).symm
  | none =>
    cases hcarried : m.carried with
    | some place =>
      have hstationary :=
        h.carried_stationary.resolve_left (by rw [hcarried]; exact Option.some_ne_none place)
      rw [hstationary]
      exact (List.append_nil _).symm
    | none => cases m.stationary <;> rfl

/-- Where regions exclude each other, the first one that is announced is the one there is. -/
theorem announced_regions (h : m.Exclusive) :
    (!m.flags.meets UpdateFlags.living && m.flags.meets UpdateFlags.position) =
        m.carried.isSome ∧
      (!m.flags.meets UpdateFlags.living && !m.flags.meets UpdateFlags.position
        && m.flags.meets UpdateFlags.stationaryPosition) = m.stationary.isSome := by
  have hflags := Flagged.of_movement m
  rw [hflags.living, hflags.position, hflags.stationary]
  constructor
  · rcases h.living_carried with hnone | hnone <;> simp [hnone]
  · rcases h.living_stationary with hliving | hnone
    · rcases h.carried_stationary with hcarried | hnone
      · simp [hliving, hcarried]
      · simp [hnone]
    · simp [hnone]

theorem reads_living (h : m.Announced) :
    Reads (Living.reader.gated (m.flags.meets UpdateFlags.living))
      (Bytes.optional (fun l => l.bytes.value) m.living) m.sent.living := by
  rw [(Flagged.of_movement m).living, sent]
  cases hliving : m.living with
  | none => exact Reads.pure none
  | some l => exact (Living.reads_bytes (h l hliving)).map some

theorem reads_bytes (h : m.Announced) (hexclusive : m.Exclusive) :
    Reads reader m.bytes.value m.sent := by
  have hflags := Flagged.of_movement m
  obtain ⟨hcarried, hstationary⟩ := announced_regions hexclusive
  simp only [bytes, trailer, regionBytes_eq hexclusive, Logged.value_append, Logged.value_pure,
    List.append_assoc]
  have hsent : m.sent = { m.sent with isSelf := m.flags.meets UpdateFlags.self } := by
    rw [hflags.self]; rfl
  rw [hsent]
  refine Reads.bind (Reads.u16 ⟨m.flags.bits⟩) ?_
  exact (reads_living h).bind <|
    (Reads.gated (fun place _ => Reads.carriedPosition place) hcarried).bind <|
    (Reads.gated (fun pose _ => Reads.pose pose) hstationary).bind <|
    (Reads.gated (fun high _ => Reads.u32 high) hflags.highGuid).bind <|
    (Reads.gated (fun low _ => Reads.u32 low) hflags.lowGuid).bind <|
    (Reads.gated (fun target _ => Reads.guid target) hflags.attackingTarget).bind <|
    (Reads.gated (fun time _ => Reads.u32 time) hflags.transport).bind <|
    (Reads.gated (fun vehicle _ => Reads.vehicle vehicle) hflags.vehicle).bind <|
    (Reads.gated (fun rotation _ => Reads.u64 rotation) hflags.rotation).last _

theorem reads_build (living : Option (Kinematics × List Living.Operation))
    (operations : List Operation) :
    Reads reader (build living operations).bytes.value (build living operations).sent :=
  reads_bytes (.build living operations) (.build living operations)

/-- However a block was made, it is read back from the flags it carries, up to its last byte. -/
theorem reader_run_build (living : Option (Kinematics × List Living.Operation))
    (operations : List Operation) (rest : Bytes) :
    reader.run ((build living operations).bytes.value ++ rest) =
      some ((build living operations).sent, rest) :=
  reads_build living operations rest

end Movement

end ObjectSync
