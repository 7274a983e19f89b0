import RuleLowering.Form.Basic

/-!
# An example module

A small module about families: a header, three rules (one with a generator, one with a guard),
a function and an attribute between them. With errors it is also declared with a parameter
and holds a rule with a generator over a binary.
-/
namespace RuleLowering.Example

def var (name : String) (pos : Data) : Expr := .var (.str name) pos

def atom (name : String) (pos : Data) : Expr := .atom (.str name) pos

def call (name : String) (arguments : List String) (pos : Data) : Expr :=
  .call (atom name pos) (arguments.map (var · pos)) pos

def clause (patterns : List String) (guard : Expr) (body : List Expr) (pos : Data) : Clause :=
  { patterns := patterns.map (var · pos), guard, body, pos }

def rule (name : String) (clauses : List Clause) (pos : Data) : Form :=
  .rule { name := .str name, clauses, pos }

/-- Every child that the database knows, with a parent. -/
def parent : Form :=
  let parents := Expr.call (.remote (atom "family_db" 5) (atom "parents" 5) 5) [] 5
  rule "parent" [clause ["P", "C"] .absent [.generator (.tuple [var "P" 5, var "C" 5] 5) parents 5] 4] 4

def ancestor : Form :=
  rule "ancestor" [
    clause ["A", "D"] .absent [call "parent" ["A", "D"] 8] 7,
    clause ["A", "D"] .absent [call "parent" ["A", "C"] 10, call "ancestor" ["C", "D"] 11] 9] 7

def count : Form :=
  .function {
    name := "count"
    clauses := [clause ["L"] .absent [call "length" ["L"] 13] 13]
    pos := 13 }

def sibling : Form :=
  rule "sibling" [
    clause ["A", "B"] (.operation "=/=" (var "A" 17) (var "B" 17) 17)
      [call "parent" ["P", "A"] 18, call "parent" ["P", "B"] 19] 17] 17

def byte : Form :=
  rule "byte" [clause ["B"] .absent [.binaryGenerator (var "B" 22) (var "Bin" 22) 22] 21] 21

/-- The forms of the module, without or with errors. -/
def family (withErrors : Bool) : List Form :=
  [ .file { file := "family.erl", line := 1, pos := 1 },
    .module {
      name := "family"
      parameters := if withErrors then some ["Db"] else none
      pos := 1 },
    .attr { name := "author", value := "henshin", pos := 2, generic := rfl },
    parent, ancestor, count,
    .attr { name := "vsn", value := 1, pos := 15, generic := rfl },
    sibling ]
  ++ (if withErrors then [byte] else []) ++ [.eof 24]

end RuleLowering.Example
