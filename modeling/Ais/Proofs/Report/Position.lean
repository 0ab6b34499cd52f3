import Ais.Proofs.Payload.Spans
import Ais.Report.Position

/-!
# Position reports — the layout

A position report is 168 bits: sixteen fields in a row, of which one is spare
(`PositionReport.layout`).  Whatever stands in the spare bits and behind the report, a report whose
fields fit their widths is read back as it is (`reads_fields`).  A payload that is too short is
refused at the first of its fields that does not fit (`decode_cases`), and one of another type at
once.

* `recompose`: the communication state is its three parts side by side.
* `decode_exact`: what becomes of any payload that has a type.
-/

namespace Ais

open Bits Reader

namespace RadioStatus

/-- A range of bits is what division leaves of the word. -/
theorem toNat_range (word : UInt32) {shift mask : UInt32} {low count : Nat} (hshift : shift.toNat % 32 = low)
    (hmask : mask.toNat = 2 ^ count - 1) :
    (word >>> shift &&& mask).toNat = word.toNat / 2 ^ low % 2 ^ count := by
  rw [UInt32.toNat_and, UInt32.toNat_shiftRight, hshift, hmask, Nat.and_two_pow_sub_one_eq_mod,
    Nat.shiftRight_eq_div_pow]

variable (r : RadioStatus)

theorem toNat_syncState : r.syncState.toNat = r.raw.toNat / 2 ^ 17 % 2 ^ 2 := by
  have hrange : (r.raw >>> 17 &&& 0x3).toNat = r.raw.toNat / 2 ^ 17 % 2 ^ 2 :=
    toNat_range r.raw rfl rfl
  rw [syncState, UInt32.toNat_toUInt8, hrange]
  omega

theorem toNat_slotTimeout : r.slotTimeout.toNat = r.raw.toNat / 2 ^ 14 % 2 ^ 3 := by
  have hrange : (r.raw >>> 14 &&& 0x7).toNat = r.raw.toNat / 2 ^ 14 % 2 ^ 3 :=
    toNat_range r.raw rfl rfl
  rw [slotTimeout, UInt32.toNat_toUInt8, hrange]
  omega

theorem toNat_subMessage : r.subMessage.toNat = r.raw.toNat % 2 ^ 14 := by
  have hmask : (0x3FFF : UInt32).toNat = 2 ^ 14 - 1 := rfl
  rw [subMessage, UInt32.toNat_toUInt16, UInt32.toNat_and, hmask, Nat.and_two_pow_sub_one_eq_mod]
  omega

/-- **The state is its parts side by side.** -/
theorem recompose {r : RadioStatus} (h : r.raw.toNat < 2 ^ 19) :
    r.syncState.toNat * 2 ^ 17 + r.slotTimeout.toNat * 2 ^ 14 + r.subMessage.toNat =
      r.raw.toNat := by
  rw [toNat_syncState, toNat_slotTimeout, toNat_subMessage]
  omega

end RadioStatus

namespace PositionReport

/-- The fields are numbers that their widths allow.  The rate of turn has a width that allows all. -/
structure Fits (r : PositionReport) : Prop where
  messageType      : 1 ≤ r.messageType ∧ r.messageType ≤ 3
  repeats          : r.repeats.toNat < 2 ^ 2
  mmsi             : r.mmsi.toNat < 2 ^ 30
  navStatus        : r.navStatus.toNat < 2 ^ 4
  speedOverGround  : r.speedOverGround.toNat < 2 ^ 10
  longitude        : -2 ^ 27 ≤ r.longitude.toInt ∧ r.longitude.toInt < 2 ^ 27
  latitude         : -2 ^ 26 ≤ r.latitude.toInt ∧ r.latitude.toInt < 2 ^ 26
  courseOverGround : r.courseOverGround.toNat < 2 ^ 12
  trueHeading      : r.trueHeading.toNat < 2 ^ 9
  timestamp        : r.timestamp.toNat < 2 ^ 6
  maneuver         : r.maneuver.toNat < 2 ^ 2
  radioStatus      : r.radioStatus.toNat < 2 ^ 19

/-- The report as it is sent. -/
def layout (r : PositionReport) (spare : BitVec 3) : List Bool :=
  [ofNat 6 r.messageType.toNat,
   ofNat 2 r.repeats.toNat,
   ofNat 30 r.mmsi.toNat,
   ofNat 4 r.navStatus.toNat,
   ofInt 8 r.rateOfTurn.toInt,
   ofNat 10 r.speedOverGround.toNat,
   [r.accurate],
   ofInt 28 r.longitude.toInt,
   ofInt 27 r.latitude.toInt,
   ofNat 12 r.courseOverGround.toNat,
   ofNat 9 r.trueHeading.toNat,
   ofNat 6 r.timestamp.toNat,
   ofNat 2 r.maneuver.toNat,
   ofNat 3 spare.toNat,
   [r.raim],
   ofNat 19 r.radioStatus.toNat].flatten

/-- Where the fields behind the type stand, and how wide they are.  The three bits from 145 on are
spare. -/
def places : List (Nat × Nat) :=
  [(6, 2), (8, 30), (38, 4), (42, 8), (50, 10), (60, 1), (61, 28), (89, 27), (116, 12), (128, 9),
    (137, 6), (143, 2), (148, 1), (149, 19)]

@[simp] theorem length_layout (r : PositionReport) (spare : BitVec 3) :
    (r.layout spare).length = 168 := by
  simp [layout]

/-- **The fields are read as they were sent.** -/
theorem reads_fields {r : PositionReport} (h : r.Fits) (spare : BitVec 3) :
    Reads fields (r.layout spare) r := by
  have htype : isType (UInt32.ofNat r.messageType.toNat).toUInt8 = true := by
    rw [UInt32.toUInt8_ofNat', UInt8.ofNat_toNat, isType]
    simpa using h.messageType
  have htype_lt : r.messageType.toNat < 2 ^ 6 :=
    Nat.lt_of_le_of_lt (UInt8.le_iff_toNat_le.mp h.messageType.2) (by decide)
  have hturn := r.rateOfTurn.toInt_lt
  have hturn' := r.rateOfTurn.le_toInt
  have hlongitude := h.longitude
  have hlatitude := h.latitude
  unfold fields layout
  simp only [List.flatten_cons, List.flatten_nil]
  refine .bind (reads_ofNat (by decide) (by decide) htype_lt) ?_
  rw [htype, Bool.not_true, if_neg (by decide)]
  refine .bind (reads_ofNat (by decide) (by decide) h.repeats) ?_
  refine .bind (reads_ofNat (by decide) (by decide) h.mmsi) ?_
  refine .bind (reads_ofNat (by decide) (by decide) h.navStatus) ?_
  refine .bind (reads_ofInt (by decide) (by decide) (by omega) (by omega)) ?_
  refine .bind (reads_ofNat (by decide) (by decide) h.speedOverGround) ?_
  refine .bind (reads_bool _) ?_
  refine .bind (reads_ofInt (by decide) (by decide) (by omega) (by omega)) ?_
  refine .bind (reads_ofInt (by decide) (by decide) (by omega) (by omega)) ?_
  refine .bind (reads_ofNat (by decide) (by decide) h.courseOverGround) ?_
  refine .bind (reads_ofNat (by decide) (by decide) h.trueHeading) ?_
  refine .bind (reads_ofNat (by decide) (by decide) h.timestamp) ?_
  refine .bind (reads_ofNat (by decide) (by decide) h.maneuver) ?_
  refine .bind (reads_skip _) ?_
  refine .bind (reads_bool _) ?_
  refine .bind (reads_ofNat (by decide) (by decide) h.radioStatus) ?_
  exact reads_pure (by simp)

/-! ### Payloads that are too short, or of another type -/

theorem firstOut_places {bits : Nat} : firstOut bits places = none ↔ 168 ≤ bits := by
  have hends : ∀ field ∈ places, field.1 + field.2 ≤ 168 := by decide
  rw [firstOut, List.find?_eq_none]
  constructor
  · intro hfits
    simpa using hfits (149, 19) (by decide)
  · intro hlong field hfield
    have hend := hends field hfield
    simp only [decide_eq_true_eq]
    omega

/-- **The type decides first, and then the first field that does not fit.** -/
theorem decode_cases {p : Payload} (h : 6 ≤ p.bits) :
    let type := UInt8.ofNat (value (p.reader.field 0 6))
    if isType type then
      match firstOut p.bits places with
      | some field => decode p = .error (.outOfBounds field.1 field.2 p.bits)
      | none       => ∃ r, decode p = .ok r
    else decode p = .error (.unexpectedType type) := by
  intro type
  obtain ⟨t, -, hdecode⟩ : ∃ t : UInt32, _ ∧ decode p = _ :=
    Payload.read_typed (Payload.messageType_eq h) isType _
  rw [hdecode]
  by_cases hposition : isType type
  · rw [if_pos hposition, if_pos hposition]
    -- what was read does not matter any more: the fields behind the type, one after the other
    refine (?_ : Spans _ 6 places) (p.reader.advance 6) rfl
    unfold places
    iterate 3 refine (takes_unsigned (by decide) (by decide)).spans (by decide) fun _ => ?_
    refine (takes_signed (by decide) (by decide)).spans (by decide) fun _ => ?_
    refine (takes_unsigned (by decide) (by decide)).spans (by decide) fun _ => ?_
    refine takes_bool.spans (by decide) fun _ => ?_
    iterate 2 refine (takes_signed (by decide) (by decide)).spans (by decide) fun _ => ?_
    iterate 4 refine (takes_unsigned (by decide) (by decide)).spans (by decide) fun _ => ?_
    refine spans_skip (by decide) ?_
    refine takes_bool.spans (by decide) fun _ => ?_
    refine (takes_unsigned (by decide) (by decide)).spans (by decide) fun _ => ?_
    exact spans_pure _ _
  · rw [if_neg hposition, if_neg hposition]

/-- **Position reports are read exactly.**  A report whose fields fit their widths is carried and
read back as it is, whatever stands in the spare bits and behind it, and its communication state is
told in three parts.  Of any payload with a type, one of the types 1 to 3 is read if it has 168 bits,
and is otherwise refused at the first field that does not fit; any other type is refused as such. -/
theorem decode_exact (p : Payload) :
    (∀ (r : PositionReport) (spare : BitVec 3) (rest : List Bool), r.Fits →
      168 + rest.length ≤ Payload.capacity →
        decode (p.carry (r.layout spare ++ rest)).1 = .ok r ∧
          r.radio.syncState.toNat * 2 ^ 17 + r.radio.slotTimeout.toNat * 2 ^ 14 +
            r.radio.subMessage.toNat = r.radioStatus.toNat) ∧
    (6 ≤ p.bits →
      let type := UInt8.ofNat (value (p.reader.field 0 6))
      p.messageType = .ok type ∧
        if 1 ≤ type ∧ type ≤ 3 then
          if p.bits < 168 then ∃ field, firstOut p.bits places = some field ∧
            decode p = .error (.outOfBounds field.1 field.2 p.bits)
          else ∃ r, decode p = .ok r
        else decode p = .error (.unexpectedType type)) := by
  constructor
  · intro r spare rest hfits hroom
    have hlength : ([] ++ (r.layout spare ++ rest)).length ≤ Payload.capacity := by
      rw [List.nil_append, List.length_append, length_layout]
      exact hroom
    exact ⟨(reads_fields hfits spare).run_fst (p.faces_carry [] _ hlength),
      RadioStatus.recompose hfits.radioStatus⟩
  · intro h type
    refine ⟨Payload.messageType_eq h, ?_⟩
    have hcases := decode_cases h
    have hposition : isType type = true ↔ 1 ≤ type ∧ type ≤ 3 := by simp [isType]
    by_cases htype : 1 ≤ type ∧ type ≤ 3
    · rw [if_pos (hposition.mpr htype)] at hcases
      rw [if_pos htype]
      cases hfirst : firstOut p.bits places with
      | none =>
          rw [hfirst] at hcases
          rwa [if_neg (Nat.not_lt.mpr (firstOut_places.mp hfirst))]
      | some field =>
          have hshort : ¬ 168 ≤ p.bits := fun hlong => by
            rw [firstOut_places.mpr hlong] at hfirst
            cases hfirst
          rw [hfirst] at hcases
          rw [if_pos (Nat.lt_of_not_le hshort)]
          exact ⟨field, rfl, hcases⟩
    · rw [if_neg (mt hposition.mp htype)] at hcases
      rwa [if_neg htype]

/-- A report from the south-west, with a bit more behind it; and 146 bits of another, which reach into
the spare bits, so that the first field that does not fit stands behind these. -/
theorem decode_exact_cut :
    let r : PositionReport := ⟨3, 1, 366053209, 3, -128, 1023, true, -134217728, -67108864, 3600, 511,
      60, 2, true, 0x54321⟩
    let q := (Payload.empty.carry (ofNat 6 1 ++ List.replicate 140 false)).1
    decode (Payload.empty.carry (r.layout 5 ++ [true])).1 = .ok r ∧
      decode q = .error (.outOfBounds 148 1 146) := by
  intro r q
  have hfits : r.Fits := by
    constructor <;> decide
  have hround := (decode_exact .empty).1 r 5 [true] hfits (by decide)
  have hlength : (ofNat 6 1 ++ List.replicate 140 false).length = 146 := by simp
  have hroom : (ofNat 6 1 ++ List.replicate 140 false).length ≤ Payload.capacity := by
    rw [hlength]
    decide
  have hbits : q.bits = 146 := (Payload.empty.carry_eq hroom).2.1.trans hlength
  have hfaces : q.reader.Faces (ofNat 6 1 ++ List.replicate 140 false) :=
    Payload.empty.faces_carry [] _ hroom
  have htype : q.reader.field 0 6 = ofNat 6 1 := hfaces.field_eq
  clear_value q
  have hcut := ((decode_exact q).2 (by omega)).2
  rw [htype, if_pos (by decide), if_pos (by omega), hbits] at hcut
  obtain ⟨field, hfield, hdecode⟩ := hcut
  obtain rfl : (148, 1) = field := Option.some.inj hfield
  exact ⟨hround.1, hdecode⟩

end PositionReport

end Ais
