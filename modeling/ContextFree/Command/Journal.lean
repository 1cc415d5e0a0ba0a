import ContextFree.Report
import ContextFree.Text.ControlSequence

/-!
# The journal

The events of a run are written to the standard error, one on a line, with their level and the
part of the program that they come from. Only events that are grave enough are written, and
control sequences in the names of a grammar are left out, so that no grammar can act on the
terminal that the journal is read on.
-/

namespace ContextFree

namespace Event

/-- The part of the program that an event comes from. -/
def origin : Event → String
  | read .. => "chomsky::grammars::parse"
  | normalizing _ => "chomsky"
  | stable .. => "chomsky::grammars::normalize::fixpoint"
  | eliminating _ => "chomsky::grammars::normalize::epsilon"
  | unitChain .. | unitsRemoved .. => "chomsky::grammars::normalize::unit"
  | droppingInaccessible _ => "chomsky::grammars::normalize::inaccessible"
  | droppingNonproductive _ | startNonproductive _ =>
    "chomsky::grammars::normalize::nonproductive"
  | introducing .. | binarized .. => "chomsky::grammars::normalize::binarization"
  | finished .. => "chomsky::grammars::normalize::pipeline"

end Event

namespace Command

/-- The slightest level that is still written; nothing is written without one. -/
abbrev Threshold := Option Level

/-- The threshold with the given name. -/
def Threshold.ofName? : String → Option Threshold
  | "off" => some none
  | "error" => some (some .error)
  | "warn" => some (some .warn)
  | "info" => some (some .info)
  | "debug" => some (some .debug)
  | "trace" => some (some .trace)
  | _ => none

def Threshold.admits (threshold : Threshold) (event : Event) : Bool :=
  match threshold with
  | none => false
  | some level => event.level.rank ≤ level.rank

/-- An event on a line of its own, its level filled up to five characters. -/
def journalLine (event : Event) : String :=
  let level := event.level.label
  let gap := "".pushn ' ' (5 - level.length)
  Text.visible s!"[{level}{gap} {event.origin}] {event.text}\n"

def journal (threshold : Threshold) (events : List Event) : String :=
  String.join ((events.filter threshold.admits).map journalLine)

end Command

end ContextFree
