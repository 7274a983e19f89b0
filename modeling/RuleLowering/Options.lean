import RuleLowering.Data.Order
import RuleLowering.Sorting

/-!
# Options

The names that lowering brings into a module. A document of options is a mapping from some of
the five names to texts that are not empty; a document that holds nothing leaves the defaults.
-/
namespace RuleLowering

/-- The names that lowering brings into a module. -/
structure Options where
  /-- Tag of the markers emitted, and file of the generated forms. -/
  origin : Text := "henshin_module"
  /-- The generated function that lists all rules. -/
  introspection : Text := "henshin_rules"
  /-- Module and name of the hook that generators are turned into calls of. -/
  supportModule : Text := "henshin_runtime"
  supportFunction : Text := "generate"
  /-- Beginning of the name of a module that declares none. -/
  placeholder : Text := "$henshin_anon"
  deriving DecidableEq, Repr

namespace Options

def names : List String :=
  ["origin", "introspection_name", "support_module", "support_function", "placeholder_prefix"]

def textOr (entries : List (Data × Data)) (name : String) (default : Text) : Text :=
  ((Data.field? entries name).bind Data.text?).getD default

def ofEntries (entries : List (Data × Data)) : Options :=
  let standard : Options := {}
  { origin := textOr entries "origin" standard.origin
    introspection := textOr entries "introspection_name" standard.introspection
    supportModule := textOr entries "support_module" standard.supportModule
    supportFunction := textOr entries "support_function" standard.supportFunction
    placeholder := textOr entries "placeholder_prefix" standard.placeholder }

def isKnown (key : Data) : Bool :=
  match key with
  | .str (.plain s) => names.contains s
  | _ => false

def isText (value : Data) : Bool :=
  match value with
  | .str t => !t.isEmpty
  | _ => false

def unknownFault (keys : List Data) : Fault :=
  match sorted Data.less? keys with
  | .error cause => .unlistableOptions cause
  | .ok arranged => match Data.joinTexts ", " arranged with
    | .error cause => .unlistableOptions cause
    | .ok _ => .unknownOptions (arranged.filterMap Data.text?)

def ofData? (d : Data) : Except Fault Options :=
  if d.isBlank then .ok {} else
  match d with
  | .map _ entries =>
    match (entries.map (·.1)).filter (!isKnown ·) with
    | [] => match entries.find? (!isText ·.2) with
      | some (key, _) => .error (.emptyOption key)
      | none => .ok (ofEntries entries)
    | unknown => .error (unknownFault unknown)
  | _ => .error (.optionsNotMapping d.kindName)

def toData (o : Options) : Data :=
  .ofFields [("origin", o.origin), ("introspection_name", o.introspection),
    ("support_module", o.supportModule), ("support_function", o.supportFunction),
    ("placeholder_prefix", o.placeholder)]

end Options

end RuleLowering
