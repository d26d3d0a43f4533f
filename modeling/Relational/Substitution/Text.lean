/-
Module: Relational.Substitution.Text
Purpose: Written form of mappings, substitutions and failures.
Main exports: Mapping.text, Substitution.text, Failure.message, Failure.text
-/
import Relational.Substitution.Basic
import Relational.Term.Text

namespace Relational

/-- A mapping on its own is written with the names of its parts. -/
def Mapping.text (mapping : Mapping) : String :=
  mapping.term.write ("Mapping \x7b var: " ++ mapping.var.text ++ ", term: ") ++ " \x7d"

namespace Substitution

/-- Appends one mapping of a substitution. -/
def writeMapping (written : String) (mapping : Mapping) : String :=
  mapping.term.write (written ++ mapping.var.text ++ ": ")

/-- Appends a substitution: its mappings, newest first, between braces. -/
def write (written : String) (s : Substitution) : String :=
  match s.mappings with
  | [] => written ++ "\x7b\x7d"
  | newest :: older =>
    older.foldl (fun written mapping => writeMapping (written ++ ", ") mapping)
      (writeMapping (written ++ "\x7b") newest) ++ "\x7d"

/-- The text of a substitution. -/
def text (s : Substitution) : String :=
  s.write ""

end Substitution

namespace Failure

/-- The failure as a sentence. -/
def message : Failure → String
  | .mismatch left right => right.write (left.write "cannot unify " ++ " with ")
  | .occurs var term => term.write (var.text ++ " occurs in ")

/-- The failure with the names of its parts. -/
def text : Failure → String
  | .mismatch left right =>
    right.write (left.write "Mismatch \x7b left: " ++ ", right: ") ++ " \x7d"
  | .occurs var term => term.write ("Occurs \x7b var: " ++ var.text ++ ", term: ") ++ " \x7d"

end Failure

end Relational
