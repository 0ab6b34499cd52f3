import Ais.Payload.Reader

/-!
# Report — position

Message types 1, 2 and 3: where a ship is and how it moves.  Fields are kept as transmitted, in
their own units: 1/10000 minute for places, 1/10 knot, 1/10 degree.
-/

namespace Ais

/-- The communication state at the end of a position report. -/
structure RadioStatus where
  raw : UInt32
deriving DecidableEq

namespace RadioStatus

/-- Where the station takes its time from, bits 18 and 17. -/
def syncState (r : RadioStatus) : UInt8 := (r.raw >>> 17 &&& 0x3).toUInt8

/-- Frames until the slot is given up, bits 16 to 14. -/
def slotTimeout (r : RadioStatus) : UInt8 := (r.raw >>> 14 &&& 0x7).toUInt8

/-- What the timeout says it is, bits 13 to 0. -/
def subMessage (r : RadioStatus) : UInt16 := (r.raw &&& 0x3FFF).toUInt16

/-- The state as a record. -/
def inspect (r : RadioStatus) : String :=
  Text.record "RadioStatus" [
    (".0", toString r.raw),
    ("sync_state", toString r.syncState),
    ("slot_timeout", toString r.slotTimeout),
    ("sub_message", toString r.subMessage)]

end RadioStatus

structure PositionReport where
  /-- 1, 2 or 3. -/
  messageType      : UInt8
  /-- How often the message has been repeated. -/
  repeats          : UInt8
  /-- The station. -/
  mmsi             : UInt32
  navStatus        : UInt8
  /-- -128 when not known. -/
  rateOfTurn       : Int8
  /-- 1/10 knot; 1023 when not known. -/
  speedOverGround  : UInt16
  /-- A fix better than 10 m. -/
  accurate         : Bool
  /-- 1/10000 minute, east positive. -/
  longitude        : Int32
  /-- 1/10000 minute, north positive. -/
  latitude         : Int32
  /-- 1/10 degree; 3600 when not known. -/
  courseOverGround : UInt16
  /-- Degrees; 511 when not known. -/
  trueHeading      : UInt16
  /-- The second of the fix; 60 and above when not known. -/
  timestamp        : UInt8
  maneuver         : UInt8
  /-- The receiver checks its own integrity. -/
  raim             : Bool
  /-- The communication state as transmitted. -/
  radioStatus      : UInt32
deriving DecidableEq

namespace PositionReport

def isType (type : UInt8) : Bool := 1 ≤ type && type ≤ 3

/-- The fields in order. -/
def fields : Read PositionReport := do
  let messageType ← Reader.unsigned 6
  if !isType messageType.toUInt8 then throw (.unexpectedType messageType.toUInt8)
  let repeats          ← Reader.unsigned 2
  let mmsi             ← Reader.unsigned 30
  let navStatus        ← Reader.unsigned 4
  let rateOfTurn       ← Reader.signed 8
  let speedOverGround  ← Reader.unsigned 10
  let accurate         ← Reader.bool
  let longitude        ← Reader.signed 28
  let latitude         ← Reader.signed 27
  let courseOverGround ← Reader.unsigned 12
  let trueHeading      ← Reader.unsigned 9
  let timestamp        ← Reader.unsigned 6
  let maneuver         ← Reader.unsigned 2
  Reader.skip 3
  let raim             ← Reader.bool
  let radioStatus      ← Reader.unsigned 19
  return {
    messageType      := messageType.toUInt8
    repeats          := repeats.toUInt8
    mmsi             := mmsi
    navStatus        := navStatus.toUInt8
    rateOfTurn       := rateOfTurn.toInt8
    speedOverGround  := speedOverGround.toUInt16
    accurate         := accurate
    longitude        := longitude
    latitude         := latitude
    courseOverGround := courseOverGround.toUInt16
    trueHeading      := trueHeading.toUInt16
    timestamp        := timestamp.toUInt8
    maneuver         := maneuver.toUInt8
    raim             := raim
    radioStatus      := radioStatus }

/-- The position report in a payload. -/
def decode (p : Payload) : Except Fault PositionReport := p.read fields

/-- The communication state, field by field. -/
def radio (r : PositionReport) : RadioStatus := ⟨r.radioStatus⟩

end PositionReport

end Ais
