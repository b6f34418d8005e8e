import PerfRelay.Collection.Event
import PerfRelay.Decimal.Layout
import PerfRelay.Text.Quoted

/-!
# Telemetry in the log

Where there is no better place for telemetry it is written to the log.
-/

namespace PerfRelay

/-- The log entry for a piece of telemetry. -/
def Report.entry : Report → Entry
  | .metric name value tags =>
    .info (s!"telemetry metric {name}={String.ofList (DecimalLayout.writtenOut.render value)} " ++
      s!"tags={Quoted.quotePairs tags.entries}")
  | .exception failure => .warn s!"telemetry exception: {failure.message}"

namespace Event

/-- The event where telemetry goes to the log. -/
def inLog : Event → Event
  | .reported report => .logged report.entry
  | other => other

end Event

end PerfRelay
