import Idsm.Foundation.Utf8
import Idsm.Managerd.ConfigManager
import Idsm.Managerd.RuleManager
import Idsm.Managerd.VsocEnvelope

/-! The upward queue of refused bundles. The parser's message about a text repeats what
it read last. -/

set_option autoImplicit false

namespace Idsm.Managerd

open Idsm.Foundation
open Idsm.Json (Value)

/-- What the parser says about a text it refuses. A message that repeats nothing reads nothing. -/
structure ParseReport where
  before : String
  lastRead : List UInt8
  after : String

/-- A byte in a message; control characters by their numbers. -/
def shownByte (byte : UInt8) : List UInt8 :=
  if byte ≤ 0x1F then utf8 ("<U+" ++ hexWord4 byte.toUInt32 ++ ">") else [byte]

def ParseReport.what (report : ParseReport) : List UInt8 :=
  utf8 report.before ++ report.lastRead.flatMap shownByte ++ utf8 report.after

/-- The parser with its messages. -/
def parseWith (parser : List UInt8 → Except ParseReport Value) (text : List UInt8) :
    Except (List UInt8) Value :=
  (parser text).mapError ParseReport.what

section Reporting

variable (library : EnvelopeLibrary) (nowMs : Int) (manufacturer : String)

/-- The queue of envelopes with one more. -/
def pushEvent (pendingEvents : List String) (item : EventItem) :
    Except Json.Error (List String) := do
  let envelope ← buildEventUpEnvelope library nowMs manufacturer [item]
  return pendingEvents ++ [envelope]

/-- What the downlink callback does after a rule bundle. -/
def reportRules (pendingEvents : List String) : RuleApply → Except Json.Error (List String)
  | .rejected err => pushEvent library nowMs manufacturer pendingEvents
      ⟨"RULE_REJECT", err, "MEDIUM", 0⟩
  | _ => .ok pendingEvents

/-- And after a configuration bundle. -/
def reportConfigs (pendingEvents : List String) : ConfigApply → Except Json.Error (List String)
  | .rejected err => pushEvent library nowMs manufacturer pendingEvents
      ⟨"CONFIG_REJECT", err, "MEDIUM", 0⟩
  | _ => .ok pendingEvents

end Reporting

end Idsm.Managerd
