import SignalCore.Bus.Script
import SignalCore.Text.Hex

/-!
# Written traces

One line of text for each event: what was done, the bytes that went each way, and a mark on an
operation that failed.
-/

namespace SignalCore.Bus

/-- The name of a control line. -/
def Line.text : Line → String
  | reset => "reset"
  | fetch => "fetch"

/-- The name of a level. -/
def Level.text : Level → String
  | low => "low"
  | high => "high"

/-- The name of a severity. -/
def Severity.text : Severity → String
  | debug => "debug"
  | info => "info"
  | warn => "warn"

/-- What the host did. -/
def Operation.text : Operation → String
  | write sent => "spi write " ++ Text.Hex.ofBytes sent
  | transfer sent _ => "spi transfer " ++ Text.Hex.ofBytes sent
  | drive line level => "pin " ++ line.text ++ " " ++ level.text

/-- What happened. -/
def Event.text : Event → String
  | noted note => "log " ++ note.severity.text ++ " " ++ note.text
  | answered (.transfer sent count) reply =>
    (Operation.transfer sent count).text ++ " -> " ++ Text.Hex.ofBytes reply.val
  | answered operation _ => operation.text
  | failed operation => operation.text ++ " fault"

end SignalCore.Bus
