import ShapeTypes.CommandLine.Outcome

/-!
# The command

Reads the shapes file of a request, prints the outcome, and leaves with its code.
-/

namespace ShapeTypes.CommandLine

/-- Why a file could not be read. -/
def FileError.ofIoError : IO.Error → FileError
  | .noFileOrDirectory .. => .missing
  | .permissionDenied .. => .denied
  | .inappropriateType _ code _ => if code = 21 then .directory else .notDirectory
  | e => .other (toString e)

/-- What a file holds. -/
def contentOf (file : String) : IO (Except FileError String) := do
  try
    match String.fromUTF8? (← IO.FS.readBinFile file) with
    | some text => return .ok text
    | none => return .error .notText
  catch e => return .error (.ofIoError e)

/-- Prints an outcome and gives its code. -/
def Outcome.report (o : Outcome) : IO UInt32 := do
  IO.print o.out
  IO.eprint o.err
  return o.code.toUInt32

end ShapeTypes.CommandLine

open ShapeTypes.CommandLine

/-- Answers the request of the arguments. -/
def main (arguments : List String) : IO UInt32 := do
  match Request.ofArguments arguments with
  | .error e => (Outcome.ofUsageError e).report
  | .ok request => (Outcome.ofRequest request (← contentOf request.file)).report
