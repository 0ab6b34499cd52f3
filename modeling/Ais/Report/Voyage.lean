import Ais.Payload.Reader

/-!
# Report — static and voyage data

Message type 5: what a ship is, and where it is bound.
-/

namespace Ais

structure VoyageReport where
  /-- How often the message has been repeated. -/
  repeats     : UInt8
  /-- The station. -/
  mmsi        : UInt32
  /-- The edition of the standard the station complies with. -/
  edition     : UInt8
  /-- The number of the ship; 0 when not known. -/
  imo         : UInt32
  callsign    : String
  name        : String
  /-- The kind of ship and cargo. -/
  shipType    : UInt8
  /-- Metres from the antenna to the bow. -/
  toBow       : UInt16
  /-- Metres from the antenna to the stern. -/
  toStern     : UInt16
  toPort      : UInt8
  toStarboard : UInt8
  /-- What fixes the position. -/
  fixDevice   : UInt8
  /-- The arrival expected; 0 for a month or day, 24 and 60 for an hour or minute not known. -/
  etaMonth    : UInt8
  etaDay      : UInt8
  etaHour     : UInt8
  etaMinute   : UInt8
  /-- 1/10 metre. -/
  draught     : UInt8
  destination : String
  /-- No data terminal is ready. -/
  noTerminal  : Bool
deriving DecidableEq

namespace VoyageReport

def isType (type : UInt8) : Bool := type == 5

/-- The fields after the message type, in order. -/
def body : Read VoyageReport := do
  let repeats     ← Reader.unsigned 2
  let mmsi        ← Reader.unsigned 30
  let edition     ← Reader.unsigned 2
  let imo         ← Reader.unsigned 30
  let callsign    ← Reader.text 42
  let name        ← Reader.text 120
  let shipType    ← Reader.unsigned 8
  let toBow       ← Reader.unsigned 9
  let toStern     ← Reader.unsigned 9
  let toPort      ← Reader.unsigned 6
  let toStarboard ← Reader.unsigned 6
  let fixDevice   ← Reader.unsigned 4
  let etaMonth    ← Reader.unsigned 4
  let etaDay      ← Reader.unsigned 5
  let etaHour     ← Reader.unsigned 5
  let etaMinute   ← Reader.unsigned 6
  let draught     ← Reader.unsigned 8
  let destination ← Reader.text 120
  let noTerminal  ← Reader.bool
  return {
    repeats     := repeats.toUInt8
    mmsi        := mmsi
    edition     := edition.toUInt8
    imo         := imo
    callsign    := callsign
    name        := name
    shipType    := shipType.toUInt8
    toBow       := toBow.toUInt16
    toStern     := toStern.toUInt16
    toPort      := toPort.toUInt8
    toStarboard := toStarboard.toUInt8
    fixDevice   := fixDevice.toUInt8
    etaMonth    := etaMonth.toUInt8
    etaDay      := etaDay.toUInt8
    etaHour     := etaHour.toUInt8
    etaMinute   := etaMinute.toUInt8
    draught     := draught.toUInt8
    destination := destination
    noTerminal  := noTerminal }

/-- The fields in order. -/
def fields : Read VoyageReport := do
  let messageType ← Reader.unsigned 6
  if !isType messageType.toUInt8 then throw (.unexpectedType messageType.toUInt8)
  body

/-- The static and voyage data in a payload. -/
def decode (p : Payload) : Except Fault VoyageReport := p.read fields

/-- The length of the ship in metres. -/
def length (r : VoyageReport) : UInt16 := r.toBow + r.toStern

end VoyageReport

end Ais
