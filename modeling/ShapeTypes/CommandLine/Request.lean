import ShapeTypes.Prefixes.Table

/-!
# Requests on the command line

* `Request` — a report on a shapes file: the schema as text, the names of the shapes, or the DOT graph;
* `Request.ofArguments` — the request of the arguments of a command;
* `UsageError` — why there is none.

A value stands in the next argument, or in the same one after `=`; after the single letter of an option it
may follow at once. A value in the next argument does not begin with a hyphen.
-/

namespace ShapeTypes.CommandLine

inductive Report where
  | dump
  | names
  | graphviz
  deriving DecidableEq

/-- A report on a shapes file, with bindings of prefixes in order, and the mode for defaults. -/
structure Request where
  report : Report
  file : String
  bindings : List Binding := []
  strict : Bool := false
  deriving DecidableEq

inductive Flag where
  | shapesFile
  | binding
  | strictDefaults
  | format
  deriving DecidableEq

/-- Why arguments make no request. -/
inductive UsageError where
  | noReport
  | unknownReport (word : String)
  | unknownArgument (argument : String)
  | missingValue (flag : Flag)
  | unexpectedValue (flag : Flag)
  | repeated (flag : Flag)
  | notBinding (value : String)
  | unknownFormat (value : String)
  | noShapesFile
  deriving DecidableEq

/-- The long name of an option. -/
def Flag.name : Flag → String
  | .shapesFile => "shapes-file"
  | .binding => "prefix"
  | .strictDefaults => "strict-defaults"
  | .format => "format"

def UsageError.message : UsageError → String
  | .noReport => "one of dump, names, graphviz is required"
  | .unknownReport word => "unknown report " ++ word
  | .unknownArgument argument => "unexpected argument " ++ argument
  | .missingValue flag => "a value is required for --" ++ flag.name
  | .unexpectedValue flag => "--" ++ flag.name ++ " takes no value"
  | .repeated flag => "--" ++ flag.name ++ " cannot be repeated"
  | .notBinding value => "expected PREFIX=IRI, found " ++ value
  | .unknownFormat value => "unknown format " ++ value
  | .noShapesFile => "--shapes-file is required"

def Report.ofWord? (word : String) : Option Report :=
  [("dump", Report.dump), ("names", .names), ("graphviz", .graphviz)].lookup word

/-- The options of a report; only the schema as text has a choice of formats. -/
def Report.flags (report : Report) : List Flag :=
  [.shapesFile, .binding, .strictDefaults] ++ if report = .dump then [.format] else []

def Flag.ofLetter? (c : Char) : Option Flag := [('s', Flag.shapesFile), ('p', .binding)].lookup c

/-- What stands before and after the first equals sign. -/
def cutAtEquals (cs : List Char) : List Char × Option (List Char) :=
  match cs.dropWhile (· ≠ '=') with
  | [] => (cs, none)
  | _ :: rest => (cs.takeWhile (· ≠ '='), some rest)

/-- The option of an argument, with a value if it stands in the same argument. -/
def optionOf? (report : Report) (argument : String) : Option (Flag × Option String) :=
  match argument.toList with
  | '-' :: '-' :: long =>
    let (name, value) := cutAtEquals long
    (report.flags.find? fun flag => flag.name.toList = name).map fun flag => (flag, value.map String.ofList)
  | '-' :: letter :: rest =>
    (Flag.ofLetter? letter).map fun flag =>
      match rest with
      | [] => (flag, none)
      | '=' :: value => (flag, some (String.ofList value))
      | value => (flag, some (String.ofList value))
  | _ => none

/-- Whether an argument can be the value of the option before it: it is a lone hyphen, or begins with none. -/
def isValue (argument : String) : Bool := argument = "-" || argument.toList.head? ≠ some '-'

/-- The options read so far. -/
structure Draft where
  file : Option String := none
  bindings : List Binding := []
  strict : Bool := false
  hasFormat : Bool := false

namespace Draft

/-- The draft with a shapes file, which is named once and not by an empty text. -/
def setFile (d : Draft) (value : String) : Except UsageError Draft :=
  if d.file.isSome then .error (.repeated .shapesFile)
  else if value = "" then .error (.missingValue .shapesFile)
  else .ok { d with file := some value }

/-- The draft with one more binding, divided at the first equals sign. -/
def addBinding (d : Draft) (value : String) : Except UsageError Draft :=
  match cutAtEquals value.toList with
  | (label, some space) =>
    .ok { d with bindings := d.bindings ++ [⟨String.ofList label, String.ofList space⟩] }
  | (_, none) => .error (.notBinding value)

/-- The draft with a format, which is given once; there is one. -/
def setFormat (d : Draft) (value : String) : Except UsageError Draft :=
  if d.hasFormat then .error (.repeated .format)
  else if value = "text" then .ok { d with hasFormat := true }
  else .error (.unknownFormat value)

/-- The draft in strict mode, which is chosen once. -/
def setStrict (d : Draft) : Except UsageError Draft :=
  if d.strict then .error (.repeated .strictDefaults) else .ok { d with strict := true }

/-- The draft with the value of an option. -/
def setValue (d : Draft) (flag : Flag) (value : String) : Except UsageError Draft :=
  match flag with
  | .shapesFile => d.setFile value
  | .binding => d.addBinding value
  | .format => d.setFormat value
  | .strictDefaults => .error (.unexpectedValue .strictDefaults)

/-- The draft with the options of some arguments; two hyphens may end them. -/
def read (report : Report) (d : Draft) : List String → Except UsageError Draft
  | [] => .ok d
  | ["--"] => .ok d
  | argument :: rest =>
    match optionOf? report argument with
    | none => .error (.unknownArgument argument)
    | some (flag, some value) => do read report (← d.setValue flag value) rest
    | some (.strictDefaults, none) => do read report (← d.setStrict) rest
    | some (flag, none) =>
      match rest with
      | value :: rest =>
        if isValue value then do read report (← d.setValue flag value) rest
        else .error (.missingValue flag)
      | [] => .error (.missingValue flag)

end Draft

/-- The request of the arguments of a command: the word for the report, then its options. -/
def Request.ofArguments : List String → Except UsageError Request
  | [] => .error .noReport
  | word :: arguments =>
    match Report.ofWord? word with
    | none => .error (.unknownReport word)
    | some report => do
      let draft ← Draft.read report {} arguments
      match draft.file with
      | none => .error .noShapesFile
      | some file => return { report, file, bindings := draft.bindings, strict := draft.strict }

end ShapeTypes.CommandLine
