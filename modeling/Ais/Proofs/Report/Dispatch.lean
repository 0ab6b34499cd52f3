import Ais.Proofs.Report.Position
import Ais.Proofs.Report.Voyage
import Ais.Report

/-!
# Reports — what a payload is taken for

A payload is read by the decoder for its type, and by hand where there is none.  Each decoder reads
the type anew, and refuses a payload of another type only after that (`Reader.Typed`), so at most one
of the two succeeds, and what they find or complain of is what is found of the payload.  All of them
look for the station in the same place, though one gets there through the fields before it and
another at once.

* `Reader.Typed`: how a decoder answers, by the type and the number of bits.
* `Payload.station_eq`: the station that is read behind the type is the number in bits 8 to 37.
* `Report.decode_agrees`: the report of a payload, and the two decoders.
-/

namespace Ais

open Bits Reader

variable {p : Payload} {type : UInt8}

/-- The decoder reads payloads of some types: it finds a report in them or runs out of bits, and
refuses all others. -/
structure Reader.Typed {α : Type} (isType : UInt8 → Bool) (decode : Payload → Except Fault α) :
    Prop where
  short : ∀ {p}, ¬ 6 ≤ p.bits → decode p = .error (.outOfBounds 0 6 p.bits)
  other : ∀ {p type}, p.messageType = .ok type → isType type = false →
    decode p = .error (.unexpectedType type)
  own   : ∀ {p type}, p.messageType = .ok type → isType type = true →
    (∃ r, decode p = .ok r) ∨ ∃ start width, decode p = .error (.outOfBounds start width p.bits)

/-- What a decoder does with a payload of a known type makes it a decoder for some types. -/
theorem Reader.typed_of_cases {α : Type} {isType : UInt8 → Bool} {decode : Payload → Except Fault α}
    {places : List (Nat × Nat)}
    (short : ∀ {p : Payload}, ¬ 6 ≤ p.bits → decode p = .error (.outOfBounds 0 6 p.bits))
    (cases : ∀ {p : Payload}, 6 ≤ p.bits →
      let type := UInt8.ofNat (value (p.reader.field 0 6))
      if isType type then
        match firstOut p.bits places with
        | some field => decode p = .error (.outOfBounds field.1 field.2 p.bits)
        | none       => ∃ r, decode p = .ok r
      else decode p = .error (.unexpectedType type)) : Typed isType decode where
  short := short
  other {p type} h hother := by
    obtain ⟨hbits, rfl⟩ := Payload.messageType_eq_ok_iff.mp h
    have hcases := cases hbits
    simpa only [hother, Bool.false_eq_true, if_false] using hcases
  own {p type} h hown := by
    obtain ⟨hbits, rfl⟩ := Payload.messageType_eq_ok_iff.mp h
    have hcases := cases hbits
    simp only [hown, if_true] at hcases
    cases hfirst : firstOut p.bits places with
    | none =>
        rw [hfirst] at hcases
        exact .inl hcases
    | some field =>
        rw [hfirst] at hcases
        exact .inr ⟨field.1, field.2, hcases⟩

theorem PositionReport.typed : Typed isType decode :=
  typed_of_cases (fun h => Payload.read_of_short h _) decode_cases

theorem VoyageReport.typed : Typed isType decode :=
  typed_of_cases (fun h => Payload.read_of_short h _) decode_cases

theorem PositionReport.isType_iff : isType type = true ↔ type ∈ [1, 2, 3] := by
  simp [isType, UInt8.le_iff_toNat_le, ← UInt8.toNat_inj]
  omega

theorem VoyageReport.isType_iff : isType type = true ↔ type = 5 := by simp [isType]

/-- Only a payload of one of its types satisfies the decoder. -/
theorem Reader.Typed.of_ok {α : Type} {isType : UInt8 → Bool} {decode : Payload → Except Fault α}
    (typed : Typed isType decode) {r : α} (h : decode p = .ok r) :
    ∃ type, p.messageType = .ok type ∧ isType type = true := by
  by_cases hbits : 6 ≤ p.bits
  · refine ⟨_, Payload.messageType_eq hbits, ?_⟩
    by_contra hother
    rw [typed.other (Payload.messageType_eq hbits) (Bool.eq_false_iff.mpr hother)] at h
    cases h
  · rw [typed.short hbits] at h
    cases h

/-- A decoder does not refuse its own types. -/
theorem Reader.Typed.not_unexpected {α : Type} {isType : UInt8 → Bool}
    {decode : Payload → Except Fault α} (typed : Typed isType decode) (h : p.messageType = .ok type)
    (hown : isType type = true) (other : UInt8) : decode p ≠ .error (.unexpectedType other) := by
  intro hrefused
  rcases typed.own h hown with ⟨r, hr⟩ | ⟨start, width, hshort⟩
  · cases hr.symm.trans hrefused
  · cases hshort.symm.trans hrefused

/-! ### The station -/

/-- **The station is the number in bits 8 to 37**, whatever else is read behind it. -/
theorem Payload.station_eq {α : Type} (mmsi : α → UInt32) {f : UInt32 → UInt32 → Read α}
    (hf : ∀ a n, Finds (f a n) fun r => mmsi r = n) {r : α}
    (h : ((do let a ← unsigned 2
              let n ← unsigned 30
              f a n : Read α).run (p.reader.advance 6)).1 = .ok r) :
    38 ≤ p.bits ∧ (mmsi r).toNat = value (p.reader.field 8 30) := by
  obtain ⟨a, -, hrest⟩ := run_bind_eq_ok_iff.mp h
  obtain ⟨n, hn, hrest⟩ := run_bind_eq_ok_iff.mp hrest
  have hmmsi : mmsi r = n := hf a n _ r hrest
  rw [unsigned_run, unsigned_run] at hn
  simp only at hn
  obtain ⟨-, -, hroom, rfl⟩ := answerNumber_eq_ok hn
  have hlt := value_lt (p.reader.field 8 30)
  rw [length_field] at hlt
  refine ⟨hroom, ?_⟩
  rw [hmmsi]
  exact (UInt32.toNat_ofNat' ..).trans (Nat.mod_eq_of_lt (Nat.lt_trans hlt (by decide)))

theorem PositionReport.mmsi_eq {r : PositionReport} (h : decode p = .ok r) :
    38 ≤ p.bits ∧ r.mmsi.toNat = value (p.reader.field 8 30) := by
  obtain ⟨type, htype, hown⟩ := typed.of_ok h
  obtain ⟨t, -, hdecode⟩ : ∃ t : UInt32, _ ∧ decode p = _ := Payload.read_typed htype isType _
  rw [hdecode, if_pos hown] at h
  refine Payload.station_eq PositionReport.mmsi (fun a n => ?_) h
  iterate 13 refine finds_last fun _ => ?_
  exact finds_pure rfl

theorem VoyageReport.mmsi_eq {r : VoyageReport} (h : decode p = .ok r) :
    38 ≤ p.bits ∧ r.mmsi.toNat = value (p.reader.field 8 30) := by
  obtain ⟨type, htype, hown⟩ := typed.of_ok h
  obtain ⟨t, -, hdecode⟩ : ∃ t : UInt32, _ ∧ decode p = _ :=
    Payload.read_typed htype isType fun _ => body
  rw [hdecode, if_pos hown] at h
  refine Payload.station_eq VoyageReport.mmsi (fun a n => ?_) h
  iterate 17 refine finds_last fun _ => ?_
  exact finds_pure rfl

/-! ### The report of a payload -/

namespace Report

theorem decode_of_short (h : ¬ 6 ≤ p.bits) : decode p = .error (.outOfBounds 0 6 p.bits) := by
  have htype : p.messageType = .error (.outOfBounds 0 6 p.bits) := Payload.read_of_short h _
  rw [decode, htype]
  rfl

theorem decode_of_position (h : p.messageType = .ok type)
    (hposition : PositionReport.isType type = true) :
    decode p = (PositionReport.decode p).map .position := by
  rw [decode, h]
  simp only [bind, Except.bind, hposition, if_true]
  cases PositionReport.decode p <;> rfl

theorem decode_of_voyage (h : p.messageType = .ok type) (hvoyage : VoyageReport.isType type = true) :
    decode p = (VoyageReport.decode p).map .voyage := by
  obtain rfl : type = 5 := VoyageReport.isType_iff.mp hvoyage
  have hposition : PositionReport.isType 5 = false := rfl
  rw [decode, h]
  simp only [bind, Except.bind, hposition, hvoyage, Bool.false_eq_true, if_false, if_true]
  cases VoyageReport.decode p <;> rfl

/-- A payload without a decoder of its own keeps its type and its station. -/
theorem decode_of_other (h : p.messageType = .ok type)
    (hposition : PositionReport.isType type = false) (hvoyage : VoyageReport.isType type = false) :
    decode p = if 38 ≤ p.bits then
        .ok (.unsupported type (UInt32.ofNat (value (p.reader.field 8 30))))
      else .error (.outOfBounds 8 30 p.bits) := by
  rw [decode, h]
  simp only [bind, Except.bind, hposition, hvoyage, Bool.false_eq_true, if_false]
  rw [unsigned_run, answerNumber_eq_answer (by decide) (by decide), answer]
  by_cases hroom : 38 ≤ p.bits
  · rw [if_pos hroom, if_pos (show (p.readerAt 8).offset + 30 ≤ (p.readerAt 8).bits from hroom)]
    rfl
  · rw [if_neg hroom, if_neg (show ¬ (p.readerAt 8).offset + 30 ≤ (p.readerAt 8).bits from hroom)]
    rfl

/-- What the two decoders make of a payload, and what is made of it in all. -/
inductive Dispatched (p : Payload) : Prop
  /-- There is no type. -/
  | short (bits : ¬ 6 ≤ p.bits)
      (position : PositionReport.decode p = .error (.outOfBounds 0 6 p.bits))
      (voyage : VoyageReport.decode p = .error (.outOfBounds 0 6 p.bits))
      (report : decode p = .error (.outOfBounds 0 6 p.bits))
  | position {type : UInt8} (ok : p.messageType = .ok type) (mem : type ∈ [1, 2, 3])
      (voyage : VoyageReport.decode p = .error (.unexpectedType type))
      (report : decode p = (PositionReport.decode p).map .position)
      (own : ∀ other, PositionReport.decode p ≠ .error (.unexpectedType other))
  | voyage (ok : p.messageType = .ok 5)
      (position : PositionReport.decode p = .error (.unexpectedType 5))
      (report : decode p = (VoyageReport.decode p).map .voyage)
      (own : ∀ other, VoyageReport.decode p ≠ .error (.unexpectedType other))
  /-- Neither decoder is meant for the type. -/
  | other {type : UInt8} (ok : p.messageType = .ok type) (not_mem : type ∉ [1, 2, 3, 5])
      (position : PositionReport.decode p = .error (.unexpectedType type))
      (voyage : VoyageReport.decode p = .error (.unexpectedType type))
      (report : decode p = if 38 ≤ p.bits then
          .ok (.unsupported type (UInt32.ofNat (value (p.reader.field 8 30))))
        else .error (.outOfBounds 8 30 p.bits))

/-- **Every payload goes one of four ways.** -/
theorem dispatched (p : Payload) : Dispatched p := by
  by_cases hbits : 6 ≤ p.bits
  · have htype := Payload.messageType_eq hbits
    generalize UInt8.ofNat (value (p.reader.field 0 6)) = type at htype
    by_cases hposition : PositionReport.isType type = true
    · have hmem := PositionReport.isType_iff.mp hposition
      have hvoyage : VoyageReport.isType type = false := by
        rw [Bool.eq_false_iff, ne_eq, VoyageReport.isType_iff]
        rintro rfl
        exact absurd hmem (by decide)
      exact .position htype hmem (VoyageReport.typed.other htype hvoyage)
        (decode_of_position htype hposition) (PositionReport.typed.not_unexpected htype hposition)
    · have hposition' := Bool.eq_false_iff.mpr hposition
      by_cases hvoyage : VoyageReport.isType type = true
      · obtain rfl : type = 5 := VoyageReport.isType_iff.mp hvoyage
        exact .voyage htype (PositionReport.typed.other htype hposition')
          (decode_of_voyage htype hvoyage) (VoyageReport.typed.not_unexpected htype hvoyage)
      · have hvoyage' := Bool.eq_false_iff.mpr hvoyage
        refine .other htype ?_ (PositionReport.typed.other htype hposition')
          (VoyageReport.typed.other htype hvoyage') (decode_of_other htype hposition' hvoyage')
        intro hmem
        have hmem : type ∈ [1, 2, 3] ++ [5] := hmem
        rw [List.mem_append, List.mem_singleton, ← PositionReport.isType_iff,
          ← VoyageReport.isType_iff] at hmem
        exact hmem.elim hposition hvoyage
  · exact .short hbits (PositionReport.typed.short hbits) (VoyageReport.typed.short hbits)
      (decode_of_short hbits)

theorem decode_eq_position_iff {r : PositionReport} :
    decode p = .ok (.position r) ↔ PositionReport.decode p = .ok r := by
  cases dispatched p with
  | short _ hposition _ hreport => simp [hposition, hreport]
  | position _ _ _ hreport _ =>
      rw [hreport]
      cases PositionReport.decode p <;> simp [Except.map]
  | voyage _ hposition hreport _ =>
      rw [hposition, hreport]
      cases VoyageReport.decode p <;> simp [Except.map]
  | other _ _ hposition _ hreport =>
      rw [hposition, hreport]
      split <;> simp

theorem decode_eq_voyage_iff {r : VoyageReport} :
    decode p = .ok (.voyage r) ↔ VoyageReport.decode p = .ok r := by
  cases dispatched p with
  | short _ _ hvoyage hreport => simp [hvoyage, hreport]
  | position _ _ hvoyage hreport _ =>
      rw [hvoyage, hreport]
      cases PositionReport.decode p <;> simp [Except.map]
  | voyage _ _ hreport _ =>
      rw [hreport]
      cases VoyageReport.decode p <;> simp [Except.map]
  | other _ _ _ hvoyage hreport =>
      rw [hvoyage, hreport]
      split <;> simp

/-- A payload without a decoder of its own needs a station. -/
theorem decode_eq_unsupported_iff {mmsi : UInt32} :
    decode p = .ok (.unsupported type mmsi) ↔ p.messageType = .ok type ∧ type ∉ [1, 2, 3, 5] ∧
      38 ≤ p.bits ∧ mmsi = UInt32.ofNat (value (p.reader.field 8 30)) := by
  cases dispatched p with
  | short hbits _ _ hreport =>
      have hlong : ¬ 38 ≤ p.bits := by omega
      simp [hreport, hlong]
  | position htype hmem _ hreport _ =>
      rw [hreport, htype, Except.ok.injEq]
      refine iff_of_false ?_ ?_
      · cases PositionReport.decode p <;> simp [Except.map]
      · rintro ⟨rfl, hother, -⟩
        exact hother (List.mem_append_left [5] hmem)
  | voyage htype _ hreport _ =>
      rw [hreport, htype, Except.ok.injEq]
      refine iff_of_false ?_ ?_
      · cases VoyageReport.decode p <;> simp [Except.map]
      · rintro ⟨rfl, hother, -⟩
        exact hother (by decide)
  | @other own htype hother _ _ hreport =>
      rw [hreport, htype, Except.ok.injEq]
      by_cases hroom : 38 ≤ p.bits
      · rw [if_pos hroom, Except.ok.injEq, Report.unsupported.injEq]
        constructor
        · rintro ⟨rfl, rfl⟩
          exact ⟨rfl, hother, hroom, rfl⟩
        · rintro ⟨rfl, -, -, rfl⟩
          exact ⟨rfl, rfl⟩
      · rw [if_neg hroom]
        simp [hroom]

/-- A report that is passed on fails as it fails. -/
theorem map_eq_error_iff {α β : Type} {x : Except Fault α} {f : α → β} {e : Fault} :
    x.map f = .error e ↔ x = .error e := by
  cases x <;> simp [Except.map]

/-- No payload is refused for its type. -/
theorem decode_ne_unexpectedType (p : Payload) (type : UInt8) :
    decode p ≠ .error (.unexpectedType type) := by
  cases dispatched p with
  | short _ _ _ hreport => simp [hreport]
  | position _ _ _ hreport hown =>
      rw [hreport, ne_eq, map_eq_error_iff]
      exact hown type
  | voyage _ _ hreport hown =>
      rw [hreport, ne_eq, map_eq_error_iff]
      exact hown type
  | other _ _ _ _ hreport =>
      rw [hreport]
      split <;> simp

/-- The station of a report is found in its place. -/
theorem mmsi_eq {r : Report} (h : decode p = .ok r) :
    38 ≤ p.bits ∧ r.mmsi.toNat = value (p.reader.field 8 30) := by
  cases r with
  | position r => exact PositionReport.mmsi_eq (decode_eq_position_iff.mp h)
  | voyage r => exact VoyageReport.mmsi_eq (decode_eq_voyage_iff.mp h)
  | unsupported type mmsi =>
      obtain ⟨-, -, hbits, rfl⟩ := decode_eq_unsupported_iff.mp h
      have hlt := value_lt (p.reader.field 8 30)
      rw [length_field] at hlt
      exact ⟨hbits, (UInt32.toNat_ofNat' ..).trans
        (Nat.mod_eq_of_lt (Nat.lt_trans hlt (by decide)))⟩

/-- **The report of a payload agrees with the decoders.**  It is a position report or a voyage report
exactly where the decoder for these finds that report, and they never both find one.  It keeps type
and station alone exactly where there is no decoder for the type, and a station.  It is never refused
for its type: where a decoder is meant for it, what is wrong is what that decoder says.  Whatever the
report is, its station is the number in bits 8 to 37. -/
theorem decode_agrees (p : Payload) :
    (∀ r, decode p = .ok (.position r) ↔ PositionReport.decode p = .ok r) ∧
    (∀ r, decode p = .ok (.voyage r) ↔ VoyageReport.decode p = .ok r) ∧
    ¬ ((∃ r, PositionReport.decode p = .ok r) ∧ ∃ r, VoyageReport.decode p = .ok r) ∧
    (∀ type, (∃ mmsi, decode p = .ok (.unsupported type mmsi)) ↔
      p.messageType = .ok type ∧ type ∉ [1, 2, 3, 5] ∧ 38 ≤ p.bits) ∧
    (∀ type, decode p ≠ .error (.unexpectedType type)) ∧
    (∀ type e, p.messageType = .ok type →
      (type ∈ [1, 2, 3] → (decode p = .error e ↔ PositionReport.decode p = .error e)) ∧
      (type = 5 → (decode p = .error e ↔ VoyageReport.decode p = .error e))) ∧
    ∀ r, decode p = .ok r → 38 ≤ p.bits ∧
      r.mmsi.toNat = value ((List.range 30).map fun j => bitAt p.bytes (8 + j)) := by
  refine ⟨fun r => decode_eq_position_iff, fun r => decode_eq_voyage_iff, ?_, ?_,
    decode_ne_unexpectedType p, ?_, fun r => mmsi_eq⟩
  · rintro ⟨⟨r, hr⟩, s, hs⟩
    cases (decode_eq_position_iff.mpr hr).symm.trans (decode_eq_voyage_iff.mpr hs)
  · intro type
    constructor
    · rintro ⟨mmsi, h⟩
      obtain ⟨htype, hother, hbits, -⟩ := decode_eq_unsupported_iff.mp h
      exact ⟨htype, hother, hbits⟩
    · rintro ⟨htype, hother, hbits⟩
      exact ⟨_, decode_eq_unsupported_iff.mpr ⟨htype, hother, hbits, rfl⟩⟩
  · intro type e htype
    constructor
    · intro hmem
      rw [decode_of_position htype (PositionReport.isType_iff.mpr hmem), map_eq_error_iff]
    · intro hfive
      rw [decode_of_voyage htype (VoyageReport.isType_iff.mpr hfive), map_eq_error_iff]

/-- A type, a count of repeats and a station, and nothing behind them. -/
theorem carried_head (type repeats mmsi : Nat) (htype : type < 2 ^ 6) (hmmsi : mmsi < 2 ^ 30) :
    let p := (Payload.empty.carry (ofNat 6 type ++ (ofNat 2 repeats ++ ofNat 30 mmsi))).1
    p.bits = 38 ∧ p.messageType = .ok (UInt8.ofNat type) ∧ value (p.reader.field 8 30) = mmsi := by
  intro p
  have hlength : (ofNat 6 type ++ (ofNat 2 repeats ++ ofNat 30 mmsi)).length = 38 := by simp
  have hroom : (ofNat 6 type ++ (ofNat 2 repeats ++ ofNat 30 mmsi)).length ≤ Payload.capacity := by
    rw [hlength]
    decide
  have hbits : p.bits = 38 := (Payload.empty.carry_eq hroom).2.1.trans hlength
  have hfirst : p.reader.field 0 6 = ofNat 6 type := by
    have hfaces : p.reader.Faces (ofNat 6 type ++ (ofNat 2 repeats ++ ofNat 30 mmsi)) :=
      Payload.empty.faces_carry [] _ hroom
    have hfield := hfaces.field_eq
    rwa [length_ofNat] at hfield
  have hstation : p.reader.field 8 30 = ofNat 30 mmsi := by
    have hlead : ofNat 6 type ++ (ofNat 2 repeats ++ ofNat 30 mmsi) =
        (ofNat 6 type ++ ofNat 2 repeats) ++ ofNat 30 mmsi := (List.append_assoc ..).symm
    have hfaces := Payload.empty.faces_carry (ofNat 6 type ++ ofNat 2 repeats) (ofNat 30 mmsi)
      (hlead ▸ hroom)
    rw [← hlead] at hfaces
    have hfield := hfaces.append_nil.field_eq
    rwa [length_ofNat] at hfield
  refine ⟨hbits, Payload.messageType_eq_ok_iff.mpr ⟨by omega, ?_⟩, ?_⟩
  · rw [hfirst, value_ofNat htype]
  · rw [hstation, value_ofNat hmmsi]

/-- Of a payload of type 4 with 38 bits type and station are kept; of one of type 2 with as many bits
the first field behind these is missed. -/
theorem decode_agrees_short :
    let p := (Payload.empty.carry (ofNat 6 4 ++ (ofNat 2 3 ++ ofNat 30 366053209))).1
    let q := (Payload.empty.carry (ofNat 6 2 ++ (ofNat 2 3 ++ ofNat 30 366053209))).1
    (∃ mmsi, decode p = .ok (.unsupported 4 mmsi) ∧ mmsi.toNat = 366053209) ∧
      q.messageType = .ok 2 ∧ decode q = .error (.outOfBounds 38 4 38) := by
  intro p q
  obtain ⟨hbits, htype, hmmsi⟩ :
      p.bits = 38 ∧ p.messageType = .ok 4 ∧ value (p.reader.field 8 30) = 366053209 :=
    carried_head 4 3 366053209 (by decide) (by decide)
  obtain ⟨hbits', htype', -⟩ : q.bits = 38 ∧ q.messageType = .ok 2 ∧ _ :=
    carried_head 2 3 366053209 (by decide) (by decide)
  clear_value p q
  constructor
  · obtain ⟨-, -, -, hother, -, -, hstation⟩ := decode_agrees p
    obtain ⟨mmsi, h⟩ := (hother 4).mpr ⟨htype, by decide, by omega⟩
    have hnumber : mmsi.toNat = value (p.reader.field 8 30) := (hstation _ h).2
    exact ⟨mmsi, h, hnumber.trans hmmsi⟩
  · obtain ⟨-, -, -, -, -, herror, -⟩ := decode_agrees q
    refine ⟨htype', ((herror 2 _ htype').1 (by decide)).mpr ?_⟩
    obtain ⟨hlong, htwo⟩ := Payload.messageType_eq_ok_iff.mp htype'
    have hposition : PositionReport.isType 2 = true := rfl
    have hcases := PositionReport.decode_cases hlong
    simp only [htwo, hposition, if_true, hbits'] at hcases
    exact hcases

end Report

end Ais
