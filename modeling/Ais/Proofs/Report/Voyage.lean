import Ais.Proofs.Payload.Finds
import Ais.Report.Voyage

/-!
# Voyage reports — the layout

A voyage report is 423 bits: its type, and nineteen fields in a row, three of them text
(`VoyageReport.layout`).  A text that ends early is filled up to the width of its field, with zeros
or with blanks and then zeros, so that what stands behind it keeps its place whatever the text is.

* `reads_fields`: the fields are read back as they were sent.
* `decode_cases`: a payload that is too short is refused at the first of its fields that does not
  fit, and one of another type at once.
* `fits_of_decode`: whatever is decoded fits its widths, so that bow and stern add up.
* `decode_as_sent`: what becomes of any payload of this type.
-/

namespace Ais.VoyageReport

open Bits Reader

/-- How many blanks stand behind each text. -/
structure Blanks where
  callsign    : Nat
  name        : Nat
  destination : Nat

def Blanks.none : Blanks := ⟨0, 0, 0⟩

/-- The fields are numbers and texts that their widths allow, together with the blanks.  The type of
the ship and its draught have widths that allow all. -/
structure Fits (r : VoyageReport) (blanks : Blanks) : Prop where
  repeats         : r.repeats.toNat < 2 ^ 2
  mmsi            : r.mmsi.toNat < 2 ^ 30
  edition         : r.edition.toNat < 2 ^ 2
  imo             : r.imo.toNat < 2 ^ 30
  callsign        : SixBit.Canonical r.callsign
  callsign_le     : r.callsign.length + blanks.callsign ≤ 7
  name            : SixBit.Canonical r.name
  name_le         : r.name.length + blanks.name ≤ 20
  toBow           : r.toBow.toNat < 2 ^ 9
  toStern         : r.toStern.toNat < 2 ^ 9
  toPort          : r.toPort.toNat < 2 ^ 6
  toStarboard     : r.toStarboard.toNat < 2 ^ 6
  fixDevice       : r.fixDevice.toNat < 2 ^ 4
  etaMonth        : r.etaMonth.toNat < 2 ^ 4
  etaDay          : r.etaDay.toNat < 2 ^ 5
  etaHour         : r.etaHour.toNat < 2 ^ 5
  etaMinute       : r.etaMinute.toNat < 2 ^ 6
  destination     : SixBit.Canonical r.destination
  destination_le  : r.destination.length + blanks.destination ≤ 20

/-- The fields behind the type as they are sent. -/
def layoutBody (r : VoyageReport) (blanks : Blanks) : List Bool :=
  [ofNat 2 r.repeats.toNat,
   ofNat 30 r.mmsi.toNat,
   ofNat 2 r.edition.toNat,
   ofNat 30 r.imo.toNat,
   spell r.callsign blanks.callsign 42,
   spell r.name blanks.name 120,
   ofNat 8 r.shipType.toNat,
   ofNat 9 r.toBow.toNat,
   ofNat 9 r.toStern.toNat,
   ofNat 6 r.toPort.toNat,
   ofNat 6 r.toStarboard.toNat,
   ofNat 4 r.fixDevice.toNat,
   ofNat 4 r.etaMonth.toNat,
   ofNat 5 r.etaDay.toNat,
   ofNat 5 r.etaHour.toNat,
   ofNat 6 r.etaMinute.toNat,
   ofNat 8 r.draught.toNat,
   spell r.destination blanks.destination 120,
   [r.noTerminal]].flatten

/-- The report as it is sent. -/
def layout (r : VoyageReport) (blanks : Blanks) : List Bool := ofNat 6 5 ++ r.layoutBody blanks

/-- Where the fields behind the type stand, and how wide they are. -/
def places : List (Nat × Nat) :=
  [(6, 2), (8, 30), (38, 2), (40, 30), (70, 42), (112, 120), (232, 8), (240, 9), (249, 9), (258, 6),
    (264, 6), (270, 4), (274, 4), (278, 5), (283, 5), (288, 6), (294, 8), (302, 120), (422, 1)]

variable {r : VoyageReport} {blanks : Blanks}

theorem length_layout (h : r.Fits blanks) : (r.layout blanks).length = 423 := by
  have hcallsign : (spell r.callsign blanks.callsign 42).length = 42 := length_spell h.callsign_le
  have hname : (spell r.name blanks.name 120).length = 120 := length_spell h.name_le
  have hdestination : (spell r.destination blanks.destination 120).length = 120 :=
    length_spell h.destination_le
  simp [layout, layoutBody, hcallsign, hname, hdestination]

/-- **The fields behind the type are read as they were sent.** -/
theorem reads_body (h : r.Fits blanks) : Reads body (r.layoutBody blanks) r := by
  unfold body layoutBody
  simp only [List.flatten_cons, List.flatten_nil]
  refine .bind (reads_ofNat (by decide) (by decide) h.repeats) ?_
  refine .bind (reads_ofNat (by decide) (by decide) h.mmsi) ?_
  refine .bind (reads_ofNat (by decide) (by decide) h.edition) ?_
  refine .bind (reads_ofNat (by decide) (by decide) h.imo) ?_
  refine .bind (reads_text h.callsign h.callsign_le) ?_
  refine .bind (reads_text h.name h.name_le) ?_
  refine .bind (reads_ofNat (by decide) (by decide) r.shipType.toNat_lt) ?_
  refine .bind (reads_ofNat (by decide) (by decide) h.toBow) ?_
  refine .bind (reads_ofNat (by decide) (by decide) h.toStern) ?_
  refine .bind (reads_ofNat (by decide) (by decide) h.toPort) ?_
  refine .bind (reads_ofNat (by decide) (by decide) h.toStarboard) ?_
  refine .bind (reads_ofNat (by decide) (by decide) h.fixDevice) ?_
  refine .bind (reads_ofNat (by decide) (by decide) h.etaMonth) ?_
  refine .bind (reads_ofNat (by decide) (by decide) h.etaDay) ?_
  refine .bind (reads_ofNat (by decide) (by decide) h.etaHour) ?_
  refine .bind (reads_ofNat (by decide) (by decide) h.etaMinute) ?_
  refine .bind (reads_ofNat (by decide) (by decide) r.draught.toNat_lt) ?_
  refine .bind (reads_text h.destination h.destination_le) ?_
  refine .bind (reads_bool _) ?_
  exact reads_pure (by simp)

theorem reads_fields (h : r.Fits blanks) : Reads fields (r.layout blanks) r := by
  refine .bind (reads_ofNat (by decide) (by decide) (by decide)) ?_
  rw [if_neg (by decide)]
  exact reads_body h

/-! ### Payloads that are too short, or of another type -/

theorem firstOut_places {bits : Nat} : firstOut bits places = none ↔ 423 ≤ bits := by
  have hends : ∀ field ∈ places, field.1 + field.2 ≤ 423 := by decide
  rw [firstOut, List.find?_eq_none]
  constructor
  · intro hfits
    simpa using hfits (422, 1) (by decide)
  · intro hlong field hfield
    have hend := hends field hfield
    simp only [decide_eq_true_eq]
    omega

theorem spans_body : Spans body 6 places := by
  unfold body places
  iterate 4 refine (takes_unsigned (by decide) (by decide)).spans (by decide) fun _ => ?_
  iterate 2 refine (takes_text _).spans (by decide) fun _ => ?_
  iterate 11 refine (takes_unsigned (by decide) (by decide)).spans (by decide) fun _ => ?_
  refine (takes_text _).spans (by decide) fun _ => ?_
  refine takes_bool.spans (by decide) fun _ => ?_
  exact spans_pure _ _

/-- **The type decides first, and then the first field that does not fit.** -/
theorem decode_cases {p : Payload} (h : 6 ≤ p.bits) :
    let type := UInt8.ofNat (value (p.reader.field 0 6))
    if isType type then
      match firstOut p.bits places with
      | some field => decode p = .error (.outOfBounds field.1 field.2 p.bits)
      | none       => ∃ r, decode p = .ok r
    else decode p = .error (.unexpectedType type) := by
  intro type
  obtain ⟨_, -, hdecode⟩ : ∃ _, _ ∧ decode p = _ :=
    Payload.read_typed (Payload.messageType_eq h) isType fun _ => body
  rw [hdecode]
  by_cases hvoyage : isType type
  · rw [if_pos hvoyage, if_pos hvoyage]
    exact spans_body (p.reader.advance 6) rfl
  · rw [if_neg hvoyage, if_neg hvoyage]

/-! ### What is decoded -/

/-- A narrow number is kept by a narrow word. -/
theorem toNat_toUInt8_lt {n : UInt32} {k : Nat} (h : n.toNat < k) : n.toUInt8.toNat < k := by
  rw [UInt32.toNat_toUInt8]
  exact Nat.lt_of_le_of_lt (Nat.mod_le ..) h

theorem toNat_toUInt16_lt {n : UInt32} {k : Nat} (h : n.toNat < k) : n.toUInt16.toNat < k := by
  rw [UInt32.toNat_toUInt16]
  exact Nat.lt_of_le_of_lt (Nat.mod_le ..) h

theorem finds_body : Finds body fun r => r.Fits .none := by
  unfold body
  refine (finds_unsigned 2).bind fun _ hrepeats => ?_
  refine (finds_unsigned 30).bind fun _ hmmsi => ?_
  refine (finds_unsigned 2).bind fun _ hedition => ?_
  refine (finds_unsigned 30).bind fun _ himo => ?_
  refine (finds_text 42).bind fun _ hcallsign => ?_
  refine (finds_text 120).bind fun _ hname => ?_
  refine finds_last fun _ => ?_
  refine (finds_unsigned 9).bind fun _ htoBow => ?_
  refine (finds_unsigned 9).bind fun _ htoStern => ?_
  refine (finds_unsigned 6).bind fun _ htoPort => ?_
  refine (finds_unsigned 6).bind fun _ htoStarboard => ?_
  refine (finds_unsigned 4).bind fun _ hfixDevice => ?_
  refine (finds_unsigned 4).bind fun _ hetaMonth => ?_
  refine (finds_unsigned 5).bind fun _ hetaDay => ?_
  refine (finds_unsigned 5).bind fun _ hetaHour => ?_
  refine (finds_unsigned 6).bind fun _ hetaMinute => ?_
  refine finds_last fun _ => ?_
  refine (finds_text 120).bind fun _ hdestination => ?_
  refine finds_last fun _ => finds_pure ?_
  exact {
    repeats        := toNat_toUInt8_lt hrepeats
    mmsi           := hmmsi
    edition        := toNat_toUInt8_lt hedition
    imo            := himo
    callsign       := hcallsign.1
    callsign_le    := hcallsign.2
    name           := hname.1
    name_le        := hname.2
    toBow          := toNat_toUInt16_lt htoBow
    toStern        := toNat_toUInt16_lt htoStern
    toPort         := toNat_toUInt8_lt htoPort
    toStarboard    := toNat_toUInt8_lt htoStarboard
    fixDevice      := toNat_toUInt8_lt hfixDevice
    etaMonth       := toNat_toUInt8_lt hetaMonth
    etaDay         := toNat_toUInt8_lt hetaDay
    etaHour        := toNat_toUInt8_lt hetaHour
    etaMinute      := toNat_toUInt8_lt hetaMinute
    destination    := hdestination.1
    destination_le := hdestination.2 }

/-- **Whatever is decoded fits its widths.** -/
theorem fits_of_decode {p : Payload} (h : decode p = .ok r) : r.Fits .none := by
  have hfields : Finds fields fun r => r.Fits .none := by
    unfold fields
    refine finds_last fun type => ?_
    by_cases htype : isType type.toUInt8
    · rw [htype, Bool.not_true, if_neg (by decide)]
      exact finds_body
    · rw [Bool.not_eq_true] at htype
      rw [htype, Bool.not_false, if_pos rfl]
      exact finds_throw
  exact hfields _ _ h

/-- Bow and stern add up to a number that has room. -/
theorem Fits.toNat_length (h : r.Fits blanks) :
    r.toBow.toNat + r.toStern.toNat < 2 ^ 16 ∧ r.length.toNat = r.toBow.toNat + r.toStern.toNat := by
  have hbow := h.toBow
  have hstern := h.toStern
  have hroom : r.toBow.toNat + r.toStern.toNat < 2 ^ 16 := by omega
  exact ⟨hroom, by rw [length, UInt16.toNat_add, Nat.mod_eq_of_lt hroom]⟩

/-- **Voyage reports are read exactly.**  A report whose fields fit their widths is carried and read
back as it is, whatever blanks fill up its texts and whatever stands behind it.  A payload of this
type is read if and only if it has 423 bits, and is otherwise refused at the first field that does not
fit.  The length of a ship that was read is that of bow and stern together. -/
theorem decode_as_sent (p : Payload) :
    (∀ (r : VoyageReport) (blanks : Blanks) (rest : List Bool), r.Fits blanks →
      423 + rest.length ≤ Payload.capacity →
        decode (p.carry (r.layout blanks ++ rest)).1 = .ok r) ∧
    (p.messageType = .ok 5 →
      ((∃ r, decode p = .ok r) ↔ 423 ≤ p.bits) ∧
      (p.bits < 423 → ∃ field, firstOut p.bits places = some field ∧
        decode p = .error (.outOfBounds field.1 field.2 p.bits))) ∧
    ∀ r, decode p = .ok r → r.toBow.toNat + r.toStern.toNat < 2 ^ 16 ∧
      r.length.toNat = r.toBow.toNat + r.toStern.toNat := by
  refine ⟨?_, ?_, fun r hr => (fits_of_decode hr).toNat_length⟩
  · intro r blanks rest hfits hroom
    have hlength : ([] ++ (r.layout blanks ++ rest)).length ≤ Payload.capacity := by
      rw [List.nil_append, List.length_append, length_layout hfits]
      exact hroom
    exact (reads_fields hfits).run_fst (p.faces_carry [] _ hlength)
  · intro htype
    obtain ⟨hbits, hfive⟩ := Payload.messageType_eq_ok_iff.mp htype
    have hcases := decode_cases hbits
    have hvoyage : isType 5 = true := rfl
    simp only [hfive, hvoyage, if_true] at hcases
    cases hfirst : firstOut p.bits places with
    | none =>
        have hlong := firstOut_places.mp hfirst
        rw [hfirst] at hcases
        exact ⟨iff_of_true hcases hlong, fun hshort => absurd hlong (Nat.not_le.mpr hshort)⟩
    | some field =>
        have hshort : ¬ 423 ≤ p.bits := fun hlong => by
          rw [firstOut_places.mpr hlong] at hfirst
          cases hfirst
        rw [hfirst] at hcases
        refine ⟨iff_of_false ?_ hshort, fun _ => ⟨field, rfl, hcases⟩⟩
        rintro ⟨r, hr⟩
        cases hr.symm.trans hcases

/-- A report with short texts, blanks behind two of them and bits behind all; and 120 bits of
another, which end in its name. -/
theorem decode_as_sent_cut :
    let r : VoyageReport := ⟨3, 369190000, 2, 6710932, "WDA9674", "SEA CAT", 255, 511, 511, 63, 63, 15,
      12, 31, 24, 60, 255, "", true⟩
    let q := (Payload.empty.carry (ofNat 6 5 ++ List.replicate 114 true)).1
    decode (Payload.empty.carry (r.layout ⟨0, 2, 20⟩ ++ [true, false])).1 = .ok r ∧
      r.length.toNat = 1022 ∧ decode q = .error (.outOfBounds 112 120 120) := by
  intro r q
  have hfits : r.Fits ⟨0, 2, 20⟩ := by
    constructor <;> decide
  have hround := (decode_as_sent .empty).1 r ⟨0, 2, 20⟩ [true, false] hfits (by decide)
  have hlength : (ofNat 6 5 ++ List.replicate 114 true).length = 120 := by simp
  have hroom : (ofNat 6 5 ++ List.replicate 114 true).length ≤ Payload.capacity := by
    rw [hlength]
    decide
  have hbits : q.bits = 120 := (Payload.empty.carry_eq hroom).2.1.trans hlength
  have hfaces : q.reader.Faces (ofNat 6 5 ++ List.replicate 114 true) :=
    Payload.empty.faces_carry [] _ hroom
  have hfield : q.reader.field 0 6 = ofNat 6 5 := hfaces.field_eq
  clear_value q
  have htype : q.messageType = .ok 5 :=
    Payload.messageType_eq_ok_iff.mpr ⟨by omega, by rw [hfield]; decide⟩
  have hcut := ((decode_as_sent q).2.1 htype).2
  rw [hbits] at hcut
  obtain ⟨field, hplace, hdecode⟩ := hcut (by decide)
  obtain rfl : (112, 120) = field := Option.some.inj hplace
  exact ⟨hround, ((decode_as_sent _).2.2 r hround).2, hdecode⟩

end Ais.VoyageReport
