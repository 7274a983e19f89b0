/-!
# Switches

The switches of the command line with their names and the values that they take.
-/
namespace RuleLowering.CommandLine

inductive Switch where
  | help
  | output
  | inputFormat
  | format
  | config
  | verbose
  deriving DecidableEq, Repr

namespace Switch

/-- The names of a switch, short ones first. -/
def names : Switch → List String
  | help => ["-h", "--help"]
  | output => ["-o", "--output"]
  | inputFormat => ["--input-format"]
  | format => ["--format"]
  | config => ["--config"]
  | verbose => ["-v", "--verbose"]

def all : List Switch := [help, output, inputFormat, format, config, verbose]

/-- Every name with its switch, in the order of the help text. -/
def table : List (String × Switch) :=
  all.flatMap fun s => s.names.map (·, s)

def ofLetter? (c : Char) : Option Switch := table.lookup (String.ofList ['-', c])

def takesValue : Switch → Bool
  | help | verbose => false
  | _ => true

def choices? : Switch → Option (List String)
  | inputFormat => some ["yaml", "json"]
  | format => some ["yaml", "json", "source"]
  | _ => none

def title (s : Switch) : String := "/".intercalate s.names

end Switch

end RuleLowering.CommandLine
