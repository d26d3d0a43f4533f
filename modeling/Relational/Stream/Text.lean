/-
Module: Relational.Stream.Text
Purpose: Written form of streams.
Main exports: Stream.write
-/
import Relational.Stream.Basic

namespace Relational.Stream

/-!
A stream is written between brackets, its mature elements divided by blanks; three dots stand for
a suspension.  Writing never forces.
-/

variable {ι κ α : Type}

/-- Appends what follows the first element, with the closing bracket. -/
def writeRest (writeItem : String → α → String) (written : String) : Stream ι κ α → String
  | .nil => written ++ ")"
  | .cons a rest => rest.writeRest writeItem (writeItem (written ++ " ") a)
  | .delay _ => written ++ " ...)"

/-- Appends a stream to the text written so far; `writeItem` appends one element. -/
def write (writeItem : String → α → String) (written : String) : Stream ι κ α → String
  | .nil => written ++ "()"
  | .cons a rest => rest.writeRest writeItem (writeItem (written ++ "(") a)
  | .delay _ => written ++ "(...)"

/-- The text of a stream. -/
def text (writeItem : String → α → String) (s : Stream ι κ α) : String :=
  s.write writeItem ""

end Relational.Stream
