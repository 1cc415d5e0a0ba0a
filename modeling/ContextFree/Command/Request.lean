/-!
# Requests on the command line

What the program is asked to do is said by its arguments: a grammar file and some options, in any
order. Arguments are taken from left to right. Asking for help or for the version is answered as
soon as it is met, and so is the first mistake.

* A long option is written out in full; its value, if it takes one, is either joined to it by `=`
  or the next argument.
* Short options can be joined (`-vw X`). The value of a short option is whatever follows it in the
  same argument, without an `=` in front, or else the next argument.
* An argument that begins with `-` is not taken for a value, except `-` alone.
* After `--` there are no options any more.
* The file has to be given, and nothing may be given twice.
-/

namespace ContextFree

namespace Command

/-- What the program is asked to do with a grammar. -/
structure Request where
  /-- The grammar file; `-` stands for the standard input. -/
  file : String
  /-- Whether the grammar is shown after every stage. -/
  stages : Bool
  /-- Whether productions are shown as tables. -/
  table : Bool
  /-- A word to look for in the language of the grammar. -/
  word : Option String
  /-- Whether the journal is detailed. -/
  verbose : Bool
deriving DecidableEq

inductive Halt where
  | help
  | version
  | misuse
deriving DecidableEq

/-- What has been asked for by the arguments so far. -/
structure Draft where
  file : Option String
  stages : Bool
  table : Bool
  word : Option String
  verbose : Bool

namespace Draft

def empty : Draft := ⟨none, false, false, none, false⟩

def setFile (draft : Draft) (file : String) : Except Halt Draft :=
  if draft.file.isSome || file = "" then .error .misuse
  else .ok { draft with file := some file }

def setStages (draft : Draft) : Except Halt Draft :=
  if draft.stages then .error .misuse else .ok { draft with stages := true }

def setTable (draft : Draft) : Except Halt Draft :=
  if draft.table then .error .misuse else .ok { draft with table := true }

def setVerbose (draft : Draft) : Except Halt Draft :=
  if draft.verbose then .error .misuse else .ok { draft with verbose := true }

def setWord (draft : Draft) (word : String) : Except Halt Draft :=
  if draft.word.isSome then .error .misuse else .ok { draft with word := some word }

/-- The request that has been put together; without a file there is none. -/
def finish (draft : Draft) : Except Halt Request :=
  match draft.file with
  | none => .error .misuse
  | some file => .ok ⟨file, draft.stages, draft.table, draft.word, draft.verbose⟩

/-- Reads joined short options. Tells whether a word is still to come with the next argument. -/
def readShort (draft : Draft) : List Char → Except Halt (Draft × Bool)
  | [] => .ok (draft, false)
  | 'h' :: _ => .error .help
  | 'V' :: _ => .error .version
  | 'v' :: more => do (← draft.setVerbose).readShort more
  | ['w'] => .ok (draft, true)
  | 'w' :: '=' :: value => do return (← draft.setWord (String.ofList value), false)
  | 'w' :: value => do return (← draft.setWord (String.ofList value), false)
  | _ => .error .misuse

/-- Reads a long option, given by its name and by the value joined to it. Tells whether a word is
still to come with the next argument. -/
def readLong (draft : Draft) (name : String) (value : Option String) :
    Except Halt (Draft × Bool) := do
  match name, value with
  | "stages", none => return (← draft.setStages, false)
  | "table", none => return (← draft.setTable, false)
  | "verbose", none => return (← draft.setVerbose, false)
  | "help", none => throw .help
  | "version", none => throw .version
  | "word", some word => return (← draft.setWord word, false)
  | "word", none => return (draft, true)
  | _, _ => throw .misuse

/-- The name of a long option, and the value joined to it. -/
def splitValue (option : List Char) : String × Option String :=
  let name := option.takeWhile (· ≠ '=')
  match option.dropWhile (· ≠ '=') with
  | [] => (String.ofList name, none)
  | _ :: value => (String.ofList name, some (String.ofList value))

def isOption (argument : String) : Bool :=
  match argument.toList with
  | '-' :: _ :: _ => true
  | _ => false

def readOption (draft : Draft) (argument : String) : Except Halt (Draft × Bool) :=
  match argument.toList with
  | '-' :: '-' :: option =>
    let (name, value) := splitValue option
    draft.readLong name value
  | _ :: options => draft.readShort options
  | [] => .error .misuse

def read (draft : Draft) : List String → Except Halt Draft
  | [] => .ok draft
  | argument :: others =>
    if argument = "--" then others.foldlM setFile draft
    else if !isOption argument then do (← draft.setFile argument).read others
    else do
      let (draft, wantsWord) ← draft.readOption argument
      -- an option that wants a word takes the next argument, unless that looks like an option
      if !wantsWord then draft.read others
      else match others with
        | [] => throw .misuse
        | word :: others =>
          if isOption word then throw .misuse
          else (← draft.setWord word).read others

end Draft

def Request.ofArguments (arguments : List String) : Except Halt Request := do
  (← Draft.empty.read arguments).finish

def versionText : String := "chomsky 0.0.0\n"

def helpText : String :=
  "Normalize a context-free grammar into Chomsky normal form\n" ++
  "\n" ++
  "Usage: chomsky [OPTIONS] <FILE>\n" ++
  "\n" ++
  "Arguments:\n" ++
  "  <FILE>  Grammar file, one rule per line (`S → a B | ε`); `-` reads stdin\n" ++
  "\n" ++
  "Options:\n" ++
  "      --stages          Print the grammar after every normalization stage\n" ++
  "      --table           Render productions as a table\n" ++
  "  -w, --word <SYMBOLS>  " ++
  "Whitespace-separated terminals to test against the normalized grammar\n" ++
  "  -v, --verbose         Verbose output\n" ++
  "  -h, --help            Print help\n" ++
  "  -V, --version         Print version\n"

end Command

end ContextFree
