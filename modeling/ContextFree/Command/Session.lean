import ContextFree.Chart.Fill
import ContextFree.Command.Directory
import ContextFree.Command.Journal
import ContextFree.Command.Request
import ContextFree.Grammar.Source
import ContextFree.Text.Blank

/-!
# Running a request

A request is run as a **session**: it goes through events, prints to the standard output, and ends
well or in trouble. What has been printed before trouble comes stays printed. An `Outcome` is what
is left to see of a session from outside: both outputs and the exit code.
-/

namespace ContextFree

namespace Command

/-- What a run can end in. Each kind says what the program was doing, and has the cause. -/
inductive Trouble where
  | reading (file : String) (cause : ReadFault)
  | invalidGrammar (file : String) (cause : Failure)
  | normalization (cause : Failure)
  | noStages
  | notNormalForm (cause : Failure)
  | chart (cause : IndexFault)

namespace Trouble

def context : Trouble → String
  | reading file _ =>
    if file = "-" then "Failed to read grammar from stdin"
    else "Failed to read grammar file: " ++ file
  | invalidGrammar file _ => "Invalid grammar in " ++ file
  | normalization _ => "Normalization failed"
  | noStages => "Normalization produced no stages"
  | notNormalForm _ => "Normalized grammar is not in Chomsky normal form"
  | chart _ => "Failed to fill the chart"

def cause? : Trouble → Option String
  | reading _ cause => some cause.message
  | invalidGrammar _ cause | normalization cause | notNormalForm cause => some cause.message
  | noStages => none
  | chart cause => some cause.message

/-- A text with four blanks in front of each of its lines. -/
def indented (text : String) : String :=
  "\n".intercalate ((text.toList.splitOnP (· = '\n')).map fun line => "    " ++ String.ofList line)

def message (trouble : Trouble) : String :=
  "Error: " ++ trouble.context ++ "\n" ++
    match trouble.cause? with
    | some cause => "\nCaused by:\n" ++ indented cause ++ "\n"
    | none => ""

end Trouble

/-- The events and the output of a run, and how it ended. -/
structure Session (α : Type) where
  events : List Event
  output : String
  result : Except Trouble α

namespace Session

variable {α β : Type}

/-- One part of a run after the other. The second part starts if the first ended well. -/
def andThen (first : Session α) (next : α → Session β) : Session β :=
  match first.result with
  | .ok a =>
    let second := next a
    ⟨first.events ++ second.events, first.output ++ second.output, second.result⟩
  | .error trouble => ⟨first.events, first.output, .error trouble⟩

instance : Monad Session where
  pure a := ⟨[], "", .ok a⟩
  bind := andThen

/-- Prints a line, or several if the text has several. -/
def print (text : String) : Session Unit := ⟨[], text ++ "\n", .ok ()⟩

def note (event : Event) : Session Unit := ⟨[event], "", .ok ()⟩

/-- Goes on with the result of a step, or into trouble. -/
def attempt (report : Report α) (trouble : Failure → Trouble) : Session α :=
  ⟨report.events, "", report.outcome.mapError trouble⟩

/-- Goes on with a value, or into trouble. -/
def ensure {ε : Type} (value : Except ε α) (trouble : ε → Trouble) : Session α :=
  ⟨[], "", value.mapError trouble⟩

end Session

namespace Request

def render (request : Request) (G : Grammar) : String :=
  if request.table then G.table else G.definition

/-- Shows the grammar that was read and what each stage made of it. -/
def printStages (request : Request) (G : Grammar) (stages : List (Stage × Grammar)) :
    Session Unit := do
  .print ("Input:\n" ++ request.render G)
  stages.forM fun (stage, H) => .print (s!"After {stage.label}:\n" ++ request.render H)

def session (request : Request) (source : Except ReadFault String) : Session Unit := do
  -- reading the grammar
  let text ← .ensure source (.reading request.file)
  let G ← .attempt (Grammar.ofText text) (.invalidGrammar request.file)
  -- bringing it into normal form
  .note (.normalizing G.start)
  let stages ← .attempt G.normalFormStages .normalization
  if request.stages then request.printStages G stages
  let some (_, H) := stages.getLast? | .ensure (.error ()) fun _ => .noStages
  -- the last stage leads to normal form
  let N ← .ensure (NormalGrammar.ofGrammar H) .notNormalForm
  if !request.stages then .print ("Chomsky Normal Form:\n" ++ request.render N.toGrammar)
  -- looking for the word
  if let some word := request.word then
    let chart ← .ensure (N.chart (Text.words Text.isWhiteSpace word.toList)) .chart
    .print chart.display

/-- The threshold of the journal: the one that is set, or else one that depends on how detailed
the journal is to be. -/
def threshold (request : Request) (set : Option Threshold) : Threshold :=
  set.getD (some (if request.verbose then .debug else .warn))

end Request

/-- What a run leaves to see. -/
structure Outcome where
  code : Nat
  output : String
  errors : String

def Session.outcome (session : Session Unit) (threshold : Threshold) : Outcome :=
  let log := journal threshold session.events
  match session.result with
  | .ok () => ⟨0, session.output, log⟩
  | .error trouble => ⟨1, session.output, log ++ trouble.message⟩

def Halt.outcome : Halt → Outcome
  | .help => ⟨0, helpText, ""⟩
  | .version => ⟨0, versionText, ""⟩
  | .misuse => ⟨2, "", "error: the arguments are not understood, try --help\n"⟩

/-- Runs the program on its arguments, with a threshold for the journal if one is set, and with a
way to read a source. -/
def runWith (arguments : List String) (set : Option Threshold)
    (source : String → Except ReadFault String) : Outcome :=
  match Request.ofArguments arguments with
  | .error halt => halt.outcome
  | .ok request => (request.session (source request.file)).outcome (request.threshold set)

/-- The sources that can be read where there are some files and bytes on the standard input. -/
def sourceFrom (dir : Directory) (input : ByteArray) (file : String) : Except ReadFault String :=
  if file = "-" then decode input else dir.read input file

end Command

end ContextFree
