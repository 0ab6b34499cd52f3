import Ais.Bytes.Span
import Ais.Json.Reading
import Ais.Json.Shape
import Ais.Report
import Ais.Settings
import Ais.Tally

/-!
# Json — the forms of the receiver's records

How spans, settings, counts and reports are written as JSON, and read back.
-/

namespace Ais

open Json (Value)

namespace Json

/-- Takes the next field of a record off a list of values. -/
abbrev Fields := StateT (List (Option Value)) Option

/-- The next field, which must be there. -/
def field {α : Type} (item? : Value → Option α) : Fields α := fun vs =>
  match vs with
  | some v :: rest => (item? v).map (·, rest)
  | _              => none

/-- The next field, nothing where it is missing or null. -/
def optionalField {α : Type} (item? : Value → Option α) : Fields (Option α) := fun vs =>
  match vs with
  | some v :: rest => (v.optional? item?).map (·, rest)
  | none :: rest   => some (none, rest)
  | []             => none

def byteField : Fields UInt8 := field fun v => (v.nat? 8).map UInt8.ofNat
def shortField : Fields UInt16 := field fun v => (v.nat? 16).map UInt16.ofNat
def longField : Fields UInt32 := field fun v => (v.nat? 32).map UInt32.ofNat
def wordField : Fields Nat := field (Value.nat? 64)
def countField : Fields UInt64 := field fun v => (v.nat? 64).map UInt64.ofNat
def signedByteField : Fields Int8 := field fun v => (v.int? (-0x80) 0x7F).map Int8.ofInt
def signedLongField : Fields Int32 := field fun v => (v.int? (-0x80000000) 0x7FFFFFFF).map Int32.ofInt
def boolField : Fields Bool := field Value.bool?
def textField : Fields String := field Value.string?

/-- A record read field by field. -/
def record? {α : Type} (names : List String) (closed : Bool) (fields : Fields α) (v : Value) :
    Option α := do
  let values ← v.fields? names closed
  return (← fields.run values).1

end Json

namespace Span

def toJson (s : Span) : Value := .record [("start", .nat s.start), ("len", .nat s.length)]

def ofJson? : Value → Option Span :=
  Json.record? ["start", "len"] false do return ⟨← Json.wordField, ← Json.wordField⟩

end Span

namespace Talkers

def toJson (t : Talkers) : Value := .string t.name

def ofJson? (v : Value) : Option Talkers := do
  match ← v.bare? with
  | "Strict" => some .strict
  | "Any"    => some .any
  | _        => none

end Talkers

namespace Timespan

def toJson (t : Timespan) : Value :=
  .record [("secs", .nat t.seconds), ("nanos", .nat t.nanoseconds)]

def ofJson? (v : Value) : Option Timespan := do
  let (seconds, nanoseconds) ← Json.record? ["secs", "nanos"] true
    (do return (← Json.wordField, ← Json.field (Value.nat? 32))) v
  of? seconds nanoseconds

end Timespan

namespace Settings

def toJson (s : Settings) : Value :=
  .record [
    ("queue_capacity", .nat s.queueCapacity),
    ("pop_timeout", s.popTimeout.toJson),
    ("talker_mode", s.talkers.toJson),
    ("pool_limit", (s.poolLimit.map Value.nat).getD .null),
    ("batches_per_call", .nat s.batchesPerCall)]

def ofJson? : Value → Option Settings :=
  Json.record?
    ["queue_capacity", "pop_timeout", "talker_mode", "pool_limit", "batches_per_call"] false do
      let queueCapacity  ← Json.wordField
      let popTimeout     ← Json.field Timespan.ofJson?
      let talkers        ← Json.field Talkers.ofJson?
      let poolLimit      ← Json.optionalField (Value.nat? 64)
      let batchesPerCall ← Json.wordField
      return { queueCapacity, popTimeout, talkers, poolLimit, batchesPerCall }

end Settings

namespace Tally

def names : List String :=
  ["bytes_consumed", "sentences", "malformed", "checksum_failures", "fragments_discarded",
   "messages", "payloads", "empty_payloads"]

/-- The counts in order. -/
def counts (t : Tally) : List Nat :=
  [t.bytes, t.sentences, t.malformed, t.checksumFailures, t.discarded, t.messages, t.payloads,
   t.emptyPayloads].map UInt64.toNat

def toJson (t : Tally) : Value := .record (names.zip (t.counts.map Value.nat))

def ofJson? : Value → Option Tally :=
  Json.record? names false do
    let bytes            ← Json.countField
    let sentences        ← Json.countField
    let malformed        ← Json.countField
    let checksumFailures ← Json.countField
    let discarded        ← Json.countField
    let messages         ← Json.countField
    let payloads         ← Json.countField
    let emptyPayloads    ← Json.countField
    return { bytes, sentences, malformed, checksumFailures, discarded, messages, payloads,
             emptyPayloads }

end Tally

namespace PositionReport

def toJson (r : PositionReport) : Value :=
  .record [
    ("message_type", .nat r.messageType.toNat),
    ("repeat", .nat r.repeats.toNat),
    ("mmsi", .nat r.mmsi.toNat),
    ("nav_status", .nat r.navStatus.toNat),
    ("rate_of_turn", .int r.rateOfTurn.toInt),
    ("speed_over_ground", .nat r.speedOverGround.toNat),
    ("position_accuracy", .bool r.accurate),
    ("longitude", .int r.longitude.toInt),
    ("latitude", .int r.latitude.toInt),
    ("course_over_ground", .nat r.courseOverGround.toNat),
    ("true_heading", .nat r.trueHeading.toNat),
    ("timestamp", .nat r.timestamp.toNat),
    ("maneuver", .nat r.maneuver.toNat),
    ("raim", .bool r.raim),
    ("radio_status", .nat r.radioStatus.toNat)]

def ofJson? : Value → Option PositionReport :=
  Json.record?
    ["message_type", "repeat", "mmsi", "nav_status", "rate_of_turn", "speed_over_ground",
     "position_accuracy", "longitude", "latitude", "course_over_ground", "true_heading",
     "timestamp", "maneuver", "raim", "radio_status"] false do
      let messageType      ← Json.byteField
      let repeats          ← Json.byteField
      let mmsi             ← Json.longField
      let navStatus        ← Json.byteField
      let rateOfTurn       ← Json.signedByteField
      let speedOverGround  ← Json.shortField
      let accurate         ← Json.boolField
      let longitude        ← Json.signedLongField
      let latitude         ← Json.signedLongField
      let courseOverGround ← Json.shortField
      let trueHeading      ← Json.shortField
      let timestamp        ← Json.byteField
      let maneuver         ← Json.byteField
      let raim             ← Json.boolField
      let radioStatus      ← Json.longField
      return { messageType, repeats, mmsi, navStatus, rateOfTurn, speedOverGround, accurate,
               longitude, latitude, courseOverGround, trueHeading, timestamp, maneuver, raim,
               radioStatus }

end PositionReport

namespace VoyageReport

def toJson (r : VoyageReport) : Value :=
  .record [
    ("repeat", .nat r.repeats.toNat),
    ("mmsi", .nat r.mmsi.toNat),
    ("ais_version", .nat r.edition.toNat),
    ("imo", .nat r.imo.toNat),
    ("callsign", .string r.callsign),
    ("vessel_name", .string r.name),
    ("ship_type", .nat r.shipType.toNat),
    ("to_bow", .nat r.toBow.toNat),
    ("to_stern", .nat r.toStern.toNat),
    ("to_port", .nat r.toPort.toNat),
    ("to_starboard", .nat r.toStarboard.toNat),
    ("epfd", .nat r.fixDevice.toNat),
    ("eta_month", .nat r.etaMonth.toNat),
    ("eta_day", .nat r.etaDay.toNat),
    ("eta_hour", .nat r.etaHour.toNat),
    ("eta_minute", .nat r.etaMinute.toNat),
    ("draught", .nat r.draught.toNat),
    ("destination", .string r.destination),
    ("dte", .bool r.noTerminal)]

def ofJson? : Value → Option VoyageReport :=
  Json.record?
    ["repeat", "mmsi", "ais_version", "imo", "callsign", "vessel_name", "ship_type", "to_bow",
     "to_stern", "to_port", "to_starboard", "epfd", "eta_month", "eta_day", "eta_hour",
     "eta_minute", "draught", "destination", "dte"] false do
      let repeats     ← Json.byteField
      let mmsi        ← Json.longField
      let edition     ← Json.byteField
      let imo         ← Json.longField
      let callsign    ← Json.textField
      let name        ← Json.textField
      let shipType    ← Json.byteField
      let toBow       ← Json.shortField
      let toStern     ← Json.shortField
      let toPort      ← Json.byteField
      let toStarboard ← Json.byteField
      let fixDevice   ← Json.byteField
      let etaMonth    ← Json.byteField
      let etaDay      ← Json.byteField
      let etaHour     ← Json.byteField
      let etaMinute   ← Json.byteField
      let draught     ← Json.byteField
      let destination ← Json.textField
      let noTerminal  ← Json.boolField
      return { repeats, mmsi, edition, imo, callsign, name, shipType, toBow, toStern, toPort,
               toStarboard, fixDevice, etaMonth, etaDay, etaHour, etaMinute, draught,
               destination, noTerminal }

end VoyageReport

namespace Report

def toJson : Report → Value
  | position r                    => .record [("Position", r.toJson)]
  | voyage r                      => .record [("StaticVoyage", r.toJson)]
  | unsupported messageType mmsi  =>
    .record [("Unsupported", .record
      [("message_type", .nat messageType.toNat), ("mmsi", .nat mmsi.toNat)])]

def ofJson? (v : Value) : Option Report := do
  match ← v.choice? with
  | ("Position", some v)     => position <$> PositionReport.ofJson? v
  | ("StaticVoyage", some v) => voyage <$> VoyageReport.ofJson? v
  | ("Unsupported", some v)  =>
    Json.record? ["message_type", "mmsi"] false
      (do return unsupported (← Json.byteField) (← Json.longField)) v
  | _ => none

end Report

end Ais
