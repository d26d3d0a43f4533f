/-
Module: Relational.Term.Text
Purpose: Written form of terms.
Main exports: Term.text, Term.write
-/
import Relational.Term.Basic

namespace Relational.Term

/-!
A pair is written as a list.  Its elements are divided by blanks, a proper list shows no end, and
any other end stands after a dot.  The writers append to the text written so far, and the writer
of a list's rest is a loop.
-/

mutual

/-- Appends a term to the text written so far. -/
def write (written : String) : Term → String
  | .var x => written ++ x.text
  | .atom a => written ++ a.value.text
  | .pair first second => writeRest (write (written ++ "(") first) second

/-- Appends what follows the first element of a list, with the closing bracket. -/
def writeRest (written : String) : Term → String
  | .var x => written ++ " . " ++ x.text ++ ")"
  | .atom a =>
    if a.value = .unit then written ++ ")"
    else written ++ " . " ++ a.value.text ++ ")"
  | .pair first second => writeRest (write (written ++ " ") first) second

end

/-- The text of a term. -/
def text (term : Term) : String :=
  write "" term

end Relational.Term
