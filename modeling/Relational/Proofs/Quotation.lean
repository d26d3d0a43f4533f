/-
Module: Relational.Proofs.Quotation
Purpose: A quoted text shows where it ends and which text it quotes.
Main exports: Text.Escaped, Text.Escaped.append_quote_inj, Text.Quotation,
  Text.Quotation.append_inj, Text.readChar_escapeChar, Text.quotation_quoted
-/
import Mathlib.Logic.Function.Defs
import Mathlib.Tactic.SplitIfs
import Relational.Text.Quoted

namespace Relational.Text

/-!
A text may contain any character, and so may what is written after it.  A reader
finds the end of a quoted text because a quote inside it never stands for itself:
a backslash in front of it says so, and a backslash that stands for itself has
another one in front of it.

Two things are kept apart here.  Finding the end needs to know nothing else about
the way in which texts are quoted.  That this way tells different texts apart is
proved by reading the characters back one by one.
-/

/-! ### Where a quoted text ends -/

/-- The inside of a quotation.  Quotes and backslashes stand only behind a
backslash that escapes them. -/
inductive Escaped : List Char → Prop where
  | nil : Escaped []
  | plain {c : Char} {rest : List Char} (noQuote : c ≠ '\x22')
      (noBackslash : c ≠ '\\') (further : Escaped rest) : Escaped (c :: rest)
  | escape (c : Char) {rest : List Char} (further : Escaped rest) :
      Escaped ('\\' :: c :: rest)

/-- The first quote that is not escaped ends the quotation. -/
theorem Escaped.append_quote_inj {body body' rest rest' : List Char}
    (escaped : Escaped body) (escaped' : Escaped body')
    (same : body ++ '\x22' :: rest = body' ++ '\x22' :: rest') :
    body = body' ∧ rest = rest' := by
  induction escaped generalizing body' with
  | nil =>
      cases escaped' with
      | nil => exact ⟨rfl, (List.cons.inj same).2⟩
      | plain noQuote _ _ => exact absurd (List.cons.inj same).1.symm noQuote
      | escape c _ => simp at same
  | @plain c _ noQuote noBackslash _ onRest =>
      cases escaped' with
      | nil => exact absurd (List.cons.inj same).1 noQuote
      | plain _ _ further' =>
          obtain ⟨sameChar, sameRest⟩ := List.cons.inj same
          obtain ⟨sameBody, sameEnd⟩ := onRest further' sameRest
          exact ⟨by rw [sameChar, sameBody], sameEnd⟩
      | escape c' _ => exact absurd (List.cons.inj same).1 noBackslash
  | escape c _ onRest =>
      cases escaped' with
      | nil => simp at same
      | plain _ noBackslash' _ =>
          exact absurd (List.cons.inj same).1.symm noBackslash'
      | escape c' further' =>
          simp only [List.cons_append, List.cons.injEq, true_and] at same
          obtain ⟨sameBody, sameEnd⟩ := onRest further' same.2
          exact ⟨by rw [same.1, sameBody], sameEnd⟩

/-- A way to quote texts.  It puts them between double quotes, escapes the quotes
and backslashes inside, and writes different texts differently. -/
structure Quotation (write : String → String) : Prop where
  injective : Function.Injective write
  enclosed : ∀ content, ∃ body, Escaped body ∧
    (write content).toList = '\x22' :: (body ++ ['\x22'])

/-- Whatever follows a quoted text, the quoted text can be told from it. -/
theorem Quotation.append_inj {write : String → String}
    (quotation : Quotation write) {content content' : String}
    {rest rest' : List Char}
    (same : (write content).toList ++ rest = (write content').toList ++ rest') :
    content = content' ∧ rest = rest' := by
  obtain ⟨body, escaped, written⟩ := quotation.enclosed content
  obtain ⟨body', escaped', written'⟩ := quotation.enclosed content'
  simp only [written, written', List.cons_append, List.append_assoc,
    List.nil_append, List.cons.injEq, true_and] at same
  obtain ⟨sameBody, sameRest⟩ := escaped.append_quote_inj escaped' same
  refine ⟨quotation.injective (String.toList_inj.1 ?_), sameRest⟩
  rw [written, written', sameBody]

/-! ### Code points -/

/-- The value of a hexadecimal digit in lower case. -/
def hexValue (c : Char) : Nat :=
  if c.isDigit then c.toNat - 48 else c.toNat - 87

/-- The number that hexadecimal digits stand for. -/
def hexNumber (digits : List Char) : Nat :=
  digits.foldl (fun number c => 16 * number + hexValue c) 0

theorem hexValue_digitChar {d : Nat} (small : d < 16) :
    hexValue d.digitChar = d := by
  have all : ∀ d : Fin 16, hexValue d.val.digitChar = d.val := by decide
  exact all ⟨d, small⟩

theorem hexNumber_toDigits (n : Nat) : hexNumber (Nat.toDigits 16 n) = n := by
  induction n using Nat.base_induction 16 (by decide) with
  | single d small =>
      rw [Nat.toDigits_of_lt_base small]
      simp [hexNumber, hexValue_digitChar small]
  | digit n d small positive onHigher =>
      rw [← Nat.toDigits_append_toDigits (by decide) positive small,
        Nat.toDigits_of_lt_base small]
      rw [hexNumber] at onHigher
      simp [hexNumber, List.foldl_append, onHigher, hexValue_digitChar small]

/-- Hexadecimal digits are none of the characters that mean something in a
quotation. -/
theorem plain_of_mem_toDigits {n : Nat} {c : Char}
    (member : c ∈ Nat.toDigits 16 n) :
    c ≠ '\x22' ∧ c ≠ '\\' ∧ c ≠ '\x7d' := by
  induction n using Nat.base_induction 16 (by decide) with
  | single d small =>
      rw [Nat.toDigits_of_lt_base small, List.mem_singleton] at member
      simp [member]
  | digit n d small positive onHigher =>
      rw [← Nat.toDigits_append_toDigits (by decide) positive small,
        Nat.toDigits_of_lt_base small, List.mem_append,
        List.mem_singleton] at member
      rcases member with higher | rfl
      · exact onHigher higher
      · simp

/-! ### Characters are read back -/

/-- The character that stands at the front of a quotation, with what follows
it. -/
def readChar : List Char → Option (Char × List Char)
  | '\\' :: '0' :: rest => some ('\x00', rest)
  | '\\' :: 't' :: rest => some ('\t', rest)
  | '\\' :: 'r' :: rest => some ('\r', rest)
  | '\\' :: 'n' :: rest => some ('\n', rest)
  | '\\' :: 'u' :: '\x7b' :: rest =>
    some (Char.ofNat (hexNumber (rest.takeWhile (· ≠ '\x7d'))),
      (rest.dropWhile (· ≠ '\x7d')).tail)
  | '\\' :: c :: rest => some (c, rest)
  | c :: rest => some (c, rest)
  | [] => none

theorem readChar_codeEscape (c : Char) (rest : List Char) :
    readChar (codeEscape c ++ rest) = some (c, rest) := by
  have digits : ∀ d ∈ Nat.toDigits 16 c.toNat,
      decide (d ≠ '\x7d') = true :=
    fun d member => decide_eq_true (plain_of_mem_toDigits member).2.2
  have taken : (Nat.toDigits 16 c.toNat ++ '\x7d' :: rest).takeWhile
      (· ≠ '\x7d') = Nat.toDigits 16 c.toNat := by
    rw [List.takeWhile_append_of_pos digits]
    simp
  have dropped : (Nat.toDigits 16 c.toNat ++ '\x7d' :: rest).dropWhile
      (· ≠ '\x7d') = '\x7d' :: rest := by
    rw [List.dropWhile_append_of_pos digits]
    simp
  simp only [codeEscape, List.append_assoc, List.cons_append, List.nil_append]
  rw [readChar, taken, dropped, hexNumber_toDigits, Char.ofNat_toNat,
    List.tail_cons]

/-- A character is written as a letter behind a backslash, by its code point, or
as it is. -/
theorem escapeChar_cases (quote : Quote) (c : Char) :
    (∃ letter, escapeChar quote c = ['\\', letter] ∧
      ∀ rest, readChar ('\\' :: letter :: rest) = some (c, rest)) ∨
    escapeChar quote c = codeEscape c ∨
    (escapeChar quote c = [c] ∧ c ≠ '\\' ∧ c ≠ quote.mark) := by
  rw [escapeChar]
  split_ifs with isNul isTab isReturn isNewline isBackslash isMark extending
    printable
  · exact Or.inl ⟨'0', rfl, fun rest => by rw [isNul, readChar]⟩
  · exact Or.inl ⟨'t', rfl, fun rest => by rw [isTab, readChar]⟩
  · exact Or.inl ⟨'r', rfl, fun rest => by rw [isReturn, readChar]⟩
  · exact Or.inl ⟨'n', rfl, fun rest => by rw [isNewline, readChar]⟩
  · exact Or.inl ⟨'\\', rfl, fun rest => by rw [isBackslash]; simp [readChar]⟩
  · refine Or.inl ⟨c, rfl, fun rest => ?_⟩
    cases quote <;> simp [isMark, Quote.mark, readChar]
  · exact Or.inr (Or.inl rfl)
  · exact Or.inr (Or.inr ⟨rfl, isBackslash, isMark⟩)
  · exact Or.inr (Or.inl rfl)

/-- Every character is read back from its escaped form. -/
theorem readChar_escapeChar (quote : Quote) (c : Char) (rest : List Char) :
    readChar (escapeChar quote c ++ rest) = some (c, rest) := by
  rcases escapeChar_cases quote c with
    ⟨letter, written, read⟩ | written | ⟨written, noBackslash, _⟩
  · rw [written]
    exact read rest
  · rw [written]
    exact readChar_codeEscape c rest
  · rw [written]
    simp [readChar, noBackslash]

/-- Different contents are escaped differently. -/
theorem escape_injective (quote : Quote) :
    Function.Injective (escape quote) := by
  have front : ∀ c content, readChar (escape quote (c :: content)) =
      some (c, escape quote content) := by
    intro c content
    rw [escape, List.flatMap_cons, readChar_escapeChar]
    rfl
  intro content
  induction content with
  | nil =>
      intro content' same
      cases content' with
      | nil => rfl
      | cons c' rest' =>
          have read := congrArg readChar same
          rw [front] at read
          cases read
  | cons c rest onRest =>
      intro content' same
      have read := congrArg readChar same
      rw [front] at read
      cases content' with
      | nil => cases read
      | cons c' rest' =>
          simp only [front, Option.some.injEq, Prod.mk.injEq] at read
          rw [read.1, onRest read.2]

/-! ### Texts are quoted -/

theorem Escaped.of_plain {chars rest : List Char}
    (plain : ∀ c ∈ chars, c ≠ '\x22' ∧ c ≠ '\\') (further : Escaped rest) :
    Escaped (chars ++ rest) := by
  induction chars with
  | nil => exact further
  | cons c chars onChars =>
      have first := plain c List.mem_cons_self
      exact .plain first.1 first.2
        (onChars fun d member => plain d (List.mem_cons_of_mem c member))

theorem escaped_codeEscape_append (c : Char) {rest : List Char}
    (further : Escaped rest) : Escaped (codeEscape c ++ rest) := by
  have closed : Escaped ('\x7d' :: rest) := .plain (by decide) (by decide) further
  have digits : Escaped (Nat.toDigits 16 c.toNat ++ '\x7d' :: rest) :=
    .of_plain (fun d member => ⟨(plain_of_mem_toDigits member).1,
      (plain_of_mem_toDigits member).2.1⟩) closed
  have opened : Escaped
      ('\x7b' :: (Nat.toDigits 16 c.toNat ++ '\x7d' :: rest)) :=
    .plain (by decide) (by decide) digits
  simpa [codeEscape] using opened.escape 'u'

theorem escaped_escape (content : List Char) :
    Escaped (escape .text content) := by
  induction content with
  | nil => exact .nil
  | cons c content onContent =>
      rw [escape, List.flatMap_cons]
      rcases escapeChar_cases .text c with
        ⟨letter, written, _⟩ | written | ⟨written, noBackslash, noMark⟩
      · rw [written]
        exact onContent.escape letter
      · rw [written]
        exact escaped_codeEscape_append c onContent
      · rw [written]
        exact .plain noMark noBackslash onContent

/-- Texts are written as a quotation. -/
theorem quotation_quoted :
    Quotation fun content => quoted .text content.toList where
  injective := by
    intro content content' same
    have chars := String.ofList_injective same
    simp only [List.cons.injEq, true_and, List.append_cancel_right_eq] at chars
    exact String.toList_inj.1 (escape_injective .text chars)
  enclosed := fun content =>
    ⟨escape .text content.toList, escaped_escape content.toList, by
      simp [quoted, Quote.mark]⟩

end Relational.Text
