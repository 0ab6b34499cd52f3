import Ais.Report.Position
import Ais.Report.Voyage

/-!
# Reports

What a payload reports, by the type of its message.  Types without a layout of their own keep the
station that sent them.
-/

namespace Ais

inductive Report where
  | position (r : PositionReport)
  | voyage (r : VoyageReport)
  | unsupported (messageType : UInt8) (mmsi : UInt32)
deriving DecidableEq

namespace Report

/-- The station that sent the report. -/
def mmsi : Report → UInt32
  | position r          => r.mmsi
  | voyage r            => r.mmsi
  | unsupported _ mmsi  => mmsi

/-- The report in a payload. -/
def decode (p : Payload) : Except Fault Report := do
  let messageType ← p.messageType
  if PositionReport.isType messageType then return .position (← PositionReport.decode p)
  else if VoyageReport.isType messageType then return .voyage (← VoyageReport.decode p)
  else
    let mmsi ← ((Reader.unsigned 30).run (p.readerAt 8)).1
    return .unsupported messageType mmsi

end Report

end Ais
