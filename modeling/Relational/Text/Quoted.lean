/-
Module: Relational.Text.Quoted
Purpose: Quoted form of texts and characters.
Main exports: Text.Quote, Text.escape, Text.quoted
-/
import Relational.Text.Extending

namespace Relational.Text

/-!
Texts stand in double quotes and single characters in single quotes.  Only the quote in use is
escaped, so the other one stands for itself.
-/

/-- The two kinds of quotation. -/
inductive Quote where
  | text
  | character
deriving DecidableEq, Repr

/-- The character that opens and closes a quotation. -/
def Quote.mark : Quote → Char
  | .text => '\x22'
  | .character => '\x27'

/-- A code point in lower-case hexadecimal without padding. -/
def codeEscape (c : Char) : List Char :=
  ['\\', 'u', '\x7b'] ++ Nat.toDigits 16 c.toNat ++ ['\x7d']

/-- One character inside a quotation. -/
def escapeChar (quote : Quote) (c : Char) : List Char :=
  if c = '\x00' then ['\\', '0']
  else if c = '\t' then ['\\', 't']
  else if c = '\r' then ['\\', 'r']
  else if c = '\n' then ['\\', 'n']
  else if c = '\\' then ['\\', '\\']
  else if c = quote.mark then ['\\', c]
  else if isExtending c then codeEscape c
  else if isPrintable c then [c]
  else codeEscape c

/-- All characters of a text, escaped one by one. -/
def escape (quote : Quote) (content : List Char) : List Char :=
  content.flatMap (escapeChar quote)

/-- The escaped content between its two quotes. -/
def quoted (quote : Quote) (content : List Char) : String :=
  String.ofList (quote.mark :: (escape quote content ++ [quote.mark]))

end Relational.Text
