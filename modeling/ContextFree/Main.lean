import ContextFree.Command.Session

/-!
# The program

Reads the grammar that the arguments ask for, runs the request and writes what comes of it.
-/

namespace ContextFree

namespace Command

/-- The cause behind an error of the operating system. -/
def ReadFault.ofError : IO.Error → ReadFault
  | .noFileOrDirectory .. => .notFound
  | .invalidArgument _ _ "name too long" => .nameTooLong
  | .inappropriateType _ 21 _ => .isDirectory
  | .inappropriateType .. => .notDirectory
  | error => .other (toString error)

partial def readAll (stream : IO.FS.Stream) (bytes : ByteArray) : IO ByteArray := do
  let chunk ← stream.read 65536
  if chunk.isEmpty then return bytes else readAll stream (bytes ++ chunk)

def readSource (file : String) : IO (Except ReadFault String) := do
  try
    let bytes ← if file = "-" then readAll (← IO.getStdin) .empty else IO.FS.readBinFile file
    return decode bytes
  catch error => return .error (.ofError error)

end Command

end ContextFree

open ContextFree.Command in
def main (arguments : List String) : IO UInt32 := do
  let set := (← IO.getEnv "RUST_LOG").bind Threshold.ofName?
  let outcome ← match Request.ofArguments arguments with
    | .error halt => pure halt.outcome
    | .ok request =>
      let source ← readSource request.file
      pure ((request.session source).outcome (request.threshold set))
  IO.print outcome.output
  IO.eprint outcome.errors
  return outcome.code.toUInt32
