import RuleLowering.CommandLine.Arguments
import RuleLowering.CommandLine.Disk
import RuleLowering.CommandLine.Usage
import RuleLowering.Diagnostic
import RuleLowering.Format
import RuleLowering.Lowering.Assembly
import RuleLowering.Rendering

/-!
# Running the command

One run reads options and forms, lowers the module, writes the result to the output and reports
every marker of the result. The exit status is 0 without markers, 1 with markers and 2 if the
input is unusable. The result is rendered before the output is opened, so a run that fails to render
it leaves all files as they were.

Of a log only its own lines are part of the outcome, not the traces of calls that go with a failure
or with a line that cannot be put together.
-/
namespace RuleLowering.CommandLine

structure Outcome where
  /-- The exit status, or a fault that no message accounts for. -/
  exit : Except Fault Nat
  stdout : Text := ""
  stderr : Text := ""
  disk : Disk
  warnings : List Text := []
  deriving Repr

/-- A fault of an unusable input is reported; one of an absent expression, of a number without
characters or of one beyond all bounds is not accounted for. -/
def isReported (f : Fault) : Bool :=
  match f.kind with
  | .absence | .blank | .overflow => false
  | _ => true

def asLines (lines : List Text) : Text := .join "" (lines.map fun line => line ++ "\n")

def complaint (f : Fault) : Text :=
  let front : Text := "henshin: " ++ f.message
  match f with
  | .brokenOptionsFile _ => front ++ ": " ++ Fault.yaml.message
  | _ => front

def readFile (disk : Disk) (path : String) : Except Fault String := do
  return String.ofList (Text.unifyLineEnds (← disk.read path).toList)

def loadOptions (r : Request) (disk : Disk) : Except Fault Options :=
  match r.config with
  | none | some "" => .ok {}
  | some path => do Options.ofFile? path (← readFile disk path) 0

def loadInput (r : Request) (disk : Disk) (stdin : Text) : Except Fault Text := do
  if r.input = "-" then return stdin else return (← readFile disk r.input)

def load (r : Request) (disk : Disk) (stdin : Text) : Except Fault (Options × List Form) := do
  let options ← loadOptions r disk
  let text ← loadInput r disk stdin
  let format := if r.jsonInput then Format.json else .yaml
  return (options, ← format.readForms 1 options.origin text)

/-- A position as a whole number, as the log has it. -/
def wholeText? : Data → Option String
  | .bool b => some (if b then "1" else "0")
  | .int n => some (toString n)
  | .float x => x.truncate?.map toString
  | _ => none

/-- Lines of the log that tell about some values: none if one of them cannot be written. -/
def logLines (values : List Data) (text : Text) : List Text :=
  if values.all Data.isWritable then ["DEBUG henshin.transform: " ++ text] else []

def scanLog (o : Options) (scan : ModuleScan) : List Text :=
  match scan.declaration with
  | some m => match wholeText? m.pos with
    | some pos => logLines [m.name, m.pos] ("module " ++ m.name.display ++ " found at " ++ pos)
    | none => []
  | none =>
    let name := (scan.name { stem := o.placeholder }).1
    logLines [name] ("no module declaration, using placeholder " ++ name.display)

/-- What the log says about the rules, if there are faults in none. -/
def ruleLog (o : Options) (scan : ModuleScan) (forms : List Form) : Except Fault (List Text) := do
  let name := (scan.name { stem := o.placeholder }).1
  let rules ← signatures? forms
  let (_, markers) ← lowerRules o scan.rest
  let errors := (scan.markers o.origin).length + markers.length
  return logLines [name] ("module " ++ name.display ++ ": " ++ toString rules.length ++ " rule(s), "
    ++ toString errors ++ " error marker(s)")

def failureLog : List Text := ["DEBUG henshin.cli: transform failed"]

def log (o : Options) (forms : List Form) : List Text :=
  let scan := ModuleScan.scan forms
  scanLog o scan ++ match ruleLog o scan forms with
    | .ok lines => lines
    | .error _ => failureLog

def OutputFormat.rendering : OutputFormat → Rendering
  | .yaml => .yaml
  | .json => .json
  | .source => .source .plain

/-- The end of a run that finds its input unusable. -/
def refuse (f : Fault) (log : List Text) (disk : Disk) (warnings : List Text) : Outcome :=
  if isReported f then
    { exit := .ok 2, stderr := asLines (log ++ [complaint f]), disk, warnings }
  else { exit := .error f, stderr := asLines log, disk, warnings }

/-- Puts a text where a request wants its output: in a file, or else on the standard output. -/
def place (r : Request) (text : Text) (disk : Disk) : Except Fault (Text × Disk) :=
  match r.output with
  | none | some "" => .ok (text, disk)
  | some path => do return ("", ← disk.write path text)

/-- What is left of the files where a text could not be put in place: an output file that could be
opened is empty. -/
def spoiled (r : Request) (disk : Disk) : Disk :=
  match r.output with
  | none | some "" => disk
  | some path => disk.opened path

/-- The end of a run that has put its result into place: the markers of the result are reported, up
to one that cannot be. -/
def report (result : List Form) (log : List Text) (stdout : Text) (disk : Disk)
    (warnings : List Text) : Outcome :=
  match diagnostics "nofile" result with
  | .error f =>
    { exit := .error f, stdout, stderr := asLines (log ++ diagnosticsBefore "nofile" result), disk,
      warnings }
  | .ok reports =>
    { exit := .ok (if reports.isEmpty then 0 else 1), stdout, stderr := asLines (log ++ reports),
      disk, warnings }

def deliver (r : Request) (result : List Form) (log : List Text) (disk : Disk)
    (warnings : List Text) : Outcome :=
  match r.format.rendering.write result with
  | .error f => { exit := .error f, stderr := asLines log, disk, warnings }
  | .ok text =>
    match place r text disk with
    | .error f => { exit := .error f, stderr := asLines log, disk := spoiled r disk, warnings }
    | .ok (stdout, disk) => report result log stdout disk warnings

def perform (r : Request) (disk : Disk) (stdin : Text) : Outcome :=
  match load r disk stdin with
  | .error f => refuse f (if r.verbose then failureLog else []) disk []
  | .ok (options, forms) =>
    let warnings := loweringWarnings options forms
    let log := if r.verbose then log options forms else []
    match lower options forms with
    | .error f => refuse f log disk warnings
    | .ok result => deliver r result log disk warnings

def run (arguments : List String) (disk : Disk) (stdin : Text) : Outcome :=
  match parse arguments with
  | .ok r => perform r disk stdin
  | .error .help => { exit := .ok 0, stdout := helpText, disk }
  | .error (.misuse m) =>
    { exit := .ok 2, stderr := usage ++ "henshin: error: " ++ m.message ++ "\n", disk }

end RuleLowering.CommandLine
