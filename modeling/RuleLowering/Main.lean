import RuleLowering.CommandLine.Run

/-!
# The command

Reads the files that the arguments name, runs the command on them, and writes what it leaves.
-/
namespace RuleLowering.CommandLine

/-- The files that a request reads, as far as they can be read. The folder of the output is taken to
exist. -/
def filesOf (r : Request) : IO Disk := do
  let mut files := []
  for path in (r.config.toList ++ [r.input]) do
    try
      let content ← IO.FS.readFile path
      files := files ++ [(path, content)]
    catch _ => pure ()
  return { files, folders := r.output.toList.map fun path => (Disk.placeOf path).dropLast }

def printed (t : Text) : String := String.ofList t.chars

def settle (before : Disk) (o : Outcome) : IO UInt32 := do
  for (path, content) in before.changed o.disk do
    IO.FS.writeFile path content
  IO.print (printed o.stdout)
  for warning in o.warnings do
    IO.eprintln (printed ("UserWarning: " ++ warning))
  IO.eprint (printed o.stderr)
  match o.exit with
  | .ok status => return UInt32.ofNat status
  | .error f => do
    IO.eprintln (printed ("henshin: " ++ f.message))
    return 1

def start (arguments : List String) : IO UInt32 := do
  let disk ← match parse arguments with
    | .ok r => filesOf r
    | .error _ => pure {}
  let stdin ← match parse arguments with
    | .ok r => if r.input = "-" then (← IO.getStdin).readToEnd else pure ""
    | .error _ => pure ""
  settle disk (run arguments disk stdin)

end RuleLowering.CommandLine

def main (arguments : List String) : IO UInt32 :=
  RuleLowering.CommandLine.start arguments
