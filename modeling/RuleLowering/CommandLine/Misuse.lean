import RuleLowering.CommandLine.Switch
import RuleLowering.Text.Shown

/-!
# Misuse of the command line

What can be wrong with a command line, and what is said about it.
-/
namespace RuleLowering.CommandLine

inductive Misuse where
  /-- An argument is short for several switches. -/
  | ambiguous (argument : String) (names : List String)
  | noValue (s : Switch)
  /-- A switch that takes no value has one in its own argument. -/
  | ignoredValue (s : Switch) (value : String)
  | badChoice (s : Switch) (value : String) (choices : List String)
  | noInput
  | unrecognized (arguments : List String)
  deriving DecidableEq, Repr

def Misuse.message : Misuse → String
  | ambiguous argument names =>
    "ambiguous option: " ++ argument ++ " could match " ++ ", ".intercalate names
  | noValue s => "argument " ++ s.title ++ ": expected one argument"
  | ignoredValue s value =>
    "argument " ++ s.title ++ ": ignored explicit argument " ++ Text.shown value
  | badChoice s value choices =>
    "argument " ++ s.title ++ ": invalid choice: " ++ Text.shown value ++ " (choose from "
      ++ ", ".intercalate (choices.map fun c : String => Text.shown c) ++ ")"
  | noInput => "the following arguments are required: input"
  | unrecognized arguments => "unrecognized arguments: " ++ " ".intercalate arguments

end RuleLowering.CommandLine
