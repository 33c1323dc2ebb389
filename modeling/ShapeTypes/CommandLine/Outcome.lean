import ShapeTypes.CommandLine.Request
import ShapeTypes.Compiler

/-!
# Outcomes of requests

* `Request.answer` — the report that a request asks for, given what its file holds;
* `RunError` — why there is none;
* `Outcome.ofRequest` — what is printed, and the code to leave with: 0 after a report, 1 after a failure,
  2 if the arguments make no request.
-/

namespace ShapeTypes.CommandLine

/-- Why a file has no text. -/
inductive FileError where
  | missing
  | directory
  | notDirectory
  | denied
  | notText
  | other (message : String)
  deriving DecidableEq

def FileError.message : FileError → String
  | .missing => "No such file or directory (os error 2)"
  | .directory => "Is a directory (os error 21)"
  | .notDirectory => "Not a directory (os error 20)"
  | .denied => "Permission denied (os error 13)"
  | .notText => "stream did not contain valid UTF-8"
  | .other message => message

/-- Why a request fails. -/
inductive RunError where
  | file (cause : FileError)
  | source (cause : SourceError)
  | inference (cause : InferenceError)

def RunError.message : RunError → String
  | .file cause => "Error loading shapes: " ++ cause.message
  | .source cause => "Error loading shapes: " ++ cause.message
  | .inference cause => "Error compiling shapes (" ++ cause.fault.text ++ "): " ++ cause.message

/-- The report on a schema; a line end follows the DOT graph. -/
def Report.render (report : Report) (s : Schema) : String :=
  match report with
  | .dump => s.text
  | .names => s.nameTable
  | .graphviz => s.dot ++ "\n"

/-- The compiler with what a request sets. -/
def Request.configure (r : Request) (c : Compiler) : Compiler :=
  r.bindings.foldl (fun c b => c.bindPrefix b.label b.space) (c.setStrict r.strict)

/-- The report that a request asks for, given what its file holds. -/
def Request.answer (r : Request) (content : Except FileError String) : Except RunError String := do
  let text ← content.mapError .file
  let compiler ← (Compiler.ofTurtle text).mapError .source
  let schema ← (r.configure compiler).compile.mapError .inference
  return r.report.render schema

/-- What a command prints, and the code it leaves with. -/
structure Outcome where
  code : Nat
  out : String := ""
  err : String := ""
  deriving DecidableEq

namespace Outcome

/-- The outcome of arguments that make no request. -/
def ofUsageError (e : UsageError) : Outcome := { code := 2, err := "error: " ++ e.message ++ "\n" }

/-- The outcome of a request, given what its file holds. -/
def ofRequest (r : Request) (content : Except FileError String) : Outcome :=
  match r.answer content with
  | .ok out => { code := 0, out }
  | .error e => { code := 1, err := "Error: " ++ Text.quoted e.message ++ "\n" }

end Outcome

end ShapeTypes.CommandLine
