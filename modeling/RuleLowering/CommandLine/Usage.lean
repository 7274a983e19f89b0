/-!
# Help on the command line
-/
namespace RuleLowering.CommandLine

def usage : String :=
  "usage: henshin [-h] [-o OUTPUT] [--input-format \x7byaml,json\x7d]\n"
    ++ "               [--format \x7byaml,json,source\x7d] [--config CONFIG] [-v]\n"
    ++ "               input\n"

def helpText : String :=
  usage
    ++ "\nRewrite rule declarations in a serialized form list into functions\n"
    ++ "\npositional arguments:\n"
    ++ "  input                 Serialized forms (YAML or JSON), '-' for stdin\n"
    ++ "\noptions:\n"
    ++ "  -h, --help            show this help message and exit\n"
    ++ "  -o OUTPUT, --output OUTPUT\n"
    ++ "                        Output file (default: stdout)\n"
    ++ "  --input-format \x7byaml,json\x7d\n"
    ++ "  --format \x7byaml,json,source\x7d\n"
    ++ "  --config CONFIG       YAML file with transform options\n"
    ++ "  -v, --verbose         Debug logging\n"

end RuleLowering.CommandLine
