/-
Module: Relational.Proofs.Readability
Purpose: The text of a term or of a substitution tells what has been written.
Main exports: Value.isBasic, Term.isBasic, Term.spell, Term.textBy,
  Term.text_eq_textBy, Text.word_append_inj, Term.LeafForm,
  Term.LeafForm.append_inj, Term.spell_append_inj, Substitution.textBy,
  Substitution.similar_of_spell, text_unambiguous
-/
import Relational.Proofs.Quotation
import Relational.Proofs.Similarity
import Relational.Substitution.Text

namespace Relational

open Text

/-!
A list shows no end if it is proper and a dot if it is not, the empty list and
the brackets of all lists look alike, and a quoted text may contain anything.
Still no text is the beginning of another one, as long as both are followed by
something that could not be a part of them.  This is what is proved by induction
on a term: it is the form in which the components of a pair can be read one after
the other.

Texts are quoted by a function that is left open.  It only has to quote, which is
what finding the end of a quoted text takes.
-/

/-! ### Written forms -/

/-- True of the values that the printed form tells apart: the unit value, truth
values, whole numbers of 32 bits, names and the names of unbound variables. -/
def Value.isBasic : Value → Bool
  | .unit | .bool _ | .integer ⟨true, .bits32⟩ _ | .symbol _ | .reified _ => true
  | _ => false

/-- The text of a value, with names quoted by `write`. -/
def Value.textBy (write : String → String) : Value → String
  | .symbol name => write name
  | value => value.text

namespace Term

/-- True of the terms whose leaves are variables and basic values. -/
def isBasic : Term → Bool
  | .var _ => true
  | .atom a => a.value.isBasic
  | .pair first second => first.isBasic && second.isBasic

/-- The characters of a leaf. -/
def leafChars (write : String → String) : Term → List Char
  | .var x => x.text.toList
  | .atom a => (a.value.textBy write).toList
  | .pair .. => []

mutual

/-- The characters of a term. -/
def spell (write : String → String) : Term → List Char
  | .pair first second => '(' :: (spell write first ++ spellRest write second)
  | leaf => leaf.leafChars write

/-- The characters that follow the first element of a list. -/
def spellRest (write : String → String) : Term → List Char
  | .pair first second => ' ' :: (spell write first ++ spellRest write second)
  | leaf =>
    if leaf.isNil then [')']
    else ' ' :: '.' :: ' ' :: (leaf.leafChars write ++ [')'])

end

/-- The text of a term, with names quoted by `write`. -/
def textBy (write : String → String) (term : Term) : String :=
  String.ofList (term.spell write)

end Term

/-- The way in which names are quoted. -/
def quoteName (name : String) : String := Text.quoted .text name.toList

theorem Value.textBy_quoteName (value : Value) :
    value.textBy quoteName = value.text := by
  cases value <;> rfl

namespace Term

/-- What is appended to a written text are the characters of the term. -/
theorem toList_write (term : Term) (written : String) :
    (term.write written).toList = written.toList ++ term.spell quoteName ∧
    (term.writeRest written).toList =
      written.toList ++ term.spellRest quoteName := by
  induction term generalizing written with
  | var x =>
      constructor
      · simp [write, spell, leafChars]
      · simp [writeRest, spellRest, isNil, leafChars]
  | atom a =>
      obtain ⟨value, origin⟩ := a
      constructor
      · simp [write, spell, leafChars, Value.textBy_quoteName]
      · cases value <;>
          simp [writeRest, spellRest, isNil, leafChars, Value.textBy_quoteName]
  | pair first second onFirst onSecond =>
      constructor
      · simp [write, spell, onFirst, onSecond]
      · simp [writeRest, spellRest, onFirst, onSecond]

/-- The text of a term quotes names as texts are quoted. -/
theorem text_eq_textBy (term : Term) : term.text = term.textBy quoteName := by
  rw [← String.toList_inj, text, (term.toList_write "").1, textBy]
  simp

end Term

/-! ### Words

All leaves but the unit atom and names are written as one word.  A word ends where
something follows that is not part of a word, and it is read back by its first
characters. -/

namespace Text

/-- True of the characters that words are made of. -/
def isWordChar (c : Char) : Bool :=
  c.isAlphanum || c = '#' || c = '_' || c = '.' || c = '-'

/-- Whatever is written here, it does not go on with a word. -/
def Parted (chars : List Char) : Prop :=
  ∀ c ∈ chars.head?, isWordChar c = false

theorem parted_nil : Parted [] := by
  simp [Parted]

theorem parted_cons {c : Char} (divides : isWordChar c = false)
    (rest : List Char) : Parted (c :: rest) := by
  simpa [Parted] using divides

/-- A word can be told from what follows it. -/
theorem word_append_inj {word word' rest rest' : List Char}
    (letters : ∀ c ∈ word, isWordChar c = true)
    (letters' : ∀ c ∈ word', isWordChar c = true) (parted : Parted rest)
    (parted' : Parted rest') (same : word ++ rest = word' ++ rest') :
    word = word' ∧ rest = rest' := by
  have taken : ∀ {word rest : List Char}, (∀ c ∈ word, isWordChar c = true) →
      Parted rest → (word ++ rest).takeWhile isWordChar = word := by
    intro word rest letters parted
    rw [List.takeWhile_append_of_pos letters]
    cases rest with
    | nil => simp
    | cons c rest => simp [parted c rfl]
  have sameWord : word = word' :=
    calc
      word = (word ++ rest).takeWhile isWordChar := (taken letters parted).symm
      _ = (word' ++ rest').takeWhile isWordChar := by rw [same]
      _ = word' := taken letters' parted'
  subst sameWord
  exact ⟨rfl, List.append_cancel_left same⟩

theorem isDigit_of_mem {n : Nat} {c : Char} (member : c ∈ Nat.toDigits 10 n) :
    c.isDigit = true :=
  Nat.isDigit_of_mem_toDigits (by decide) (by decide) member

theorem isWordChar_of_mem {n : Nat} {c : Char}
    (member : c ∈ Nat.toDigits 10 n) : isWordChar c = true := by
  simp [isWordChar, Char.isAlphanum, isDigit_of_mem member]

end Text

namespace Term

/-- What a word stands for: the identifier of a variable, or a value. -/
def readWord : List Char → Nat ⊕ Value
  | '#' :: digits => .inl (Nat.ofDigitChars 10 digits 0)
  | '_' :: _ :: digits => .inr (.reified (Nat.ofDigitChars 10 digits 0))
  | 't' :: _ => .inr (.bool true)
  | 'f' :: _ => .inr (.bool false)
  | '-' :: digits =>
    .inr (.integer ⟨true, .bits32⟩ (-(Nat.ofDigitChars 10 digits 0)))
  | digits => .inr (.integer ⟨true, .bits32⟩ (Nat.ofDigitChars 10 digits 0))

theorem readWord_toDigits (n : Nat) :
    readWord (Nat.toDigits 10 n) = .inr (.integer ⟨true, .bits32⟩ n) := by
  have digits : ∀ c ∈ Nat.toDigits 10 n, c.isDigit = true :=
    fun _ => isDigit_of_mem
  unfold readWord
  split
  case h_6 => rw [Nat.ofDigitChars_ten_toDigits]
  -- No number begins with a letter or with a sign.
  all_goals
    rename_i opening
    rw [opening] at digits
    simp at digits

/-- What is read from the word of a leaf. -/
def label : Term → Option (Nat ⊕ Value)
  | .var x => some (.inl x.id)
  | .atom a => some (.inr a.value)
  | .pair .. => none

/-- The ways in which a leaf may be written. -/
inductive LeafKind where
  | word
  | name
  | unit

/-- The way in which a leaf is written: as a word that is read back, as a quoted
name, or as the empty list. -/
inductive LeafForm (write : String → String) : LeafKind → Term → Prop where
  | word {leaf : Term} {c : Char} {rest : List Char}
      (written : leaf.leafChars write = c :: rest) (noDot : c ≠ '.')
      (letters : ∀ d ∈ leaf.leafChars write, isWordChar d = true)
      (read : leaf.label = some (readWord (leaf.leafChars write))) :
      LeafForm write .word leaf
  | name (name : String) (place : Place) :
      LeafForm write .name (.atom ⟨.symbol name, place⟩)
  | unit (place : Place) : LeafForm write .unit (.atom ⟨.unit, place⟩)

theorem leafForm_var (write : String → String) (x : Var) :
    LeafForm write .word (.var x) := by
  have written : (Term.var x).leafChars write = '#' :: Nat.toDigits 10 x.id := by
    simp [leafChars, Var.text]
  refine .word written (by decide) ?_ ?_
  · rw [written]
    exact List.forall_mem_cons.2 ⟨by decide, fun _ => isWordChar_of_mem⟩
  · simp [written, label, readWord]

theorem leafForm_reified (write : String → String) (number : Nat)
    (place : Place) : LeafForm write .word (.atom ⟨.reified number, place⟩) := by
  have written : (Term.atom ⟨.reified number, place⟩).leafChars write =
      '_' :: '.' :: Nat.toDigits 10 number := by
    simp [leafChars, Value.textBy, Value.text, reifiedName]
  refine .word written (by decide) ?_ ?_
  · rw [written]
    exact List.forall_mem_cons.2 ⟨by decide,
      List.forall_mem_cons.2 ⟨by decide, fun _ => isWordChar_of_mem⟩⟩
  · simp [written, label, readWord]

theorem leafForm_bool (write : String → String) (truth : Bool) (place : Place) :
    LeafForm write .word (.atom ⟨.bool truth, place⟩) := by
  have written : (Term.atom ⟨.bool truth, place⟩).leafChars write =
      if truth then ['t', 'r', 'u', 'e'] else ['f', 'a', 'l', 's', 'e'] := by
    cases truth <;> simp [leafChars, Value.textBy, Value.text]
  cases truth with
  | false =>
      exact .word written (by decide)
        (List.all_eq_true.1 (by rw [written]; rfl)) (by rw [written]; rfl)
  | true =>
      exact .word written (by decide)
        (List.all_eq_true.1 (by rw [written]; rfl)) (by rw [written]; rfl)

theorem leafForm_integer (write : String → String) (number : Int)
    (place : Place) :
    LeafForm write .word (.atom ⟨.integer ⟨true, .bits32⟩ number, place⟩) := by
  by_cases positive : 0 ≤ number
  · have written : (Term.atom ⟨.integer ⟨true, .bits32⟩ number, place⟩).leafChars
        write = Nat.toDigits 10 number.toNat := by
      simp [leafChars, Value.textBy, Value.text, Int.repr_eq_if, positive]
    obtain ⟨c, rest, opening⟩ :=
      List.exists_cons_of_ne_nil (Nat.toDigits_ne_nil (n := number.toNat) (b := 10))
    have digit : c.isDigit = true := isDigit_of_mem (opening ▸ List.mem_cons_self)
    refine .word (written.trans opening) ?_ ?_ ?_
    · rintro rfl
      simp at digit
    · rw [written]
      exact fun _ => isWordChar_of_mem
    · rw [written, readWord_toDigits, label, Int.toNat_of_nonneg positive]
  · have written : (Term.atom ⟨.integer ⟨true, .bits32⟩ number, place⟩).leafChars
        write = '-' :: Nat.toDigits 10 (-number).toNat := by
      simp [leafChars, Value.textBy, Value.text, Int.repr_eq_if, positive]
    have magnitude : ((-number).toNat : Int) = -number :=
      Int.toNat_of_nonneg (by omega)
    refine .word written (by decide) ?_ ?_
    · rw [written]
      exact List.forall_mem_cons.2 ⟨by decide, fun _ => isWordChar_of_mem⟩
    · simp [written, label, readWord, magnitude]

/-- A basic term is a leaf that is written in one of these ways, or a pair of basic
terms. -/
theorem basic_cases (write : String → String) {term : Term}
    (basic : term.isBasic = true) :
    (∃ kind, LeafForm write kind term) ∨ ∃ first second,
      term = .pair first second ∧ first.isBasic = true ∧
        second.isBasic = true := by
  cases term with
  | var x => exact Or.inl ⟨_, leafForm_var write x⟩
  | atom a =>
      obtain ⟨value, place⟩ := a
      left
      cases value with
      | unit => exact ⟨_, .unit place⟩
      | bool truth => exact ⟨_, leafForm_bool write truth place⟩
      | integer type number =>
          obtain ⟨signed, width⟩ := type
          cases signed <;> cases width <;> cases basic
          exact ⟨_, leafForm_integer write number place⟩
      | symbol name => exact ⟨_, .name name place⟩
      | reified number => exact ⟨_, leafForm_reified write number place⟩
      | _ => cases basic
  | pair first second =>
      rw [isBasic, Bool.and_eq_true] at basic
      exact Or.inr ⟨first, second, rfl, basic.1, basic.2⟩

end Term

/-! ### Leaves

The first character of a leaf tells the way in which it is written.  It is never
a closing bracket or a dot, which is how the end of a list is recognised. -/

theorem Value.eqv_self {value : Value} (basic : value.isBasic = true) :
    value.eqv value = true := by
  cases value with
  | float precision bits => cases basic
  | boxed content => cases basic
  | tagged type content eqClass => cases basic
  | _ => exact decide_eq_true rfl

namespace Term

/-- Leaves that are read as the same are equal. -/
theorem eqv_of_label {leaf leaf' : Term} {found : Nat ⊕ Value}
    (basic : leaf.isBasic = true) (read : leaf.label = some found)
    (read' : leaf'.label = some found) : leaf.eqv leaf' = true := by
  have same : leaf.label = leaf'.label := read.trans read'.symm
  cases leaf with
  | pair first second => cases read
  | var x =>
      cases leaf' with
      | var y =>
          simp only [label, Option.some.injEq, Sum.inl.injEq] at same
          exact decide_eq_true (Var.ext same)
      | atom b => cases same
      | pair first second => cases same
  | atom a =>
      cases leaf' with
      | var y => cases same
      | atom b =>
          simp only [label, Option.some.injEq, Sum.inr.injEq] at same
          have equal : a.value.eqv b.value = true :=
            same ▸ Value.eqv_self basic
          simp [eqv, Atom.eqv, equal]
      | pair first second => cases same

/-- The way in which a leaf with this first character is written. -/
def LeafKind.ofFirst (c : Char) : LeafKind :=
  if c = '(' then .unit else if c = '\x22' then .name else .word

namespace LeafForm

variable {write : String → String}

theorem ne_pair {kind : LeafKind} {leaf : Term}
    (form : LeafForm write kind leaf) (first second : Term) :
    leaf ≠ .pair first second := by
  rintro rfl
  cases form with
  | word _ _ _ read => cases read

theorem spell_eq {kind : LeafKind} {leaf : Term}
    (form : LeafForm write kind leaf) :
    leaf.spell write = leaf.leafChars write := by
  cases leaf with
  | pair first second => exact absurd rfl (form.ne_pair first second)
  | _ => simp only [spell]

theorem spellRest_eq {kind : LeafKind} {leaf : Term}
    (form : LeafForm write kind leaf) :
    leaf.spellRest write =
      if leaf.isNil then [')']
      else ' ' :: '.' :: ' ' :: (leaf.leafChars write ++ [')']) := by
  cases leaf with
  | pair first second => exact absurd rfl (form.ne_pair first second)
  | _ => simp only [spellRest]

theorem opening {kind : LeafKind} {leaf : Term}
    (quotation : Quotation write) (form : LeafForm write kind leaf) :
    ∃ c rest, leaf.leafChars write = c :: rest ∧ LeafKind.ofFirst c = kind ∧
      c ≠ ')' ∧ c ≠ '.' := by
  cases form with
  | @word _ c rest written noDot letters _ =>
      have letter : isWordChar c = true :=
        letters c (written ▸ List.mem_cons_self)
      have different : ∀ d, isWordChar d = false → c ≠ d := by
        rintro d divides rfl
        rw [letter] at divides
        cases divides
      refine ⟨c, rest, written, ?_, different _ (by decide), noDot⟩
      rw [LeafKind.ofFirst, if_neg (different _ (by decide)),
        if_neg (different _ (by decide))]
  | name name place =>
      obtain ⟨body, _, written⟩ := quotation.enclosed name
      exact ⟨'\x22', _, written, rfl, by decide, by decide⟩
  | unit place =>
      exact ⟨'(', [')'], by simp [leafChars, Value.textBy, Value.text], rfl,
        by decide, by decide⟩

/-- Two leaves are told apart, whatever follows them. -/
theorem append_inj {kind kind' : LeafKind} {leaf leaf' : Term}
    (quotation : Quotation write) (form : LeafForm write kind leaf)
    (form' : LeafForm write kind' leaf') (basic : leaf.isBasic = true)
    {rest rest' : List Char} (parted : Parted rest) (parted' : Parted rest')
    (same : leaf.leafChars write ++ rest = leaf'.leafChars write ++ rest') :
    leaf.eqv leaf' = true ∧ rest = rest' := by
  obtain ⟨c, tail, written, isKind, _⟩ := form.opening quotation
  obtain ⟨c', tail', written', isKind', _⟩ := form'.opening quotation
  have sameFirst : c = c' := by
    rw [written, written'] at same
    exact (List.cons.inj same).1
  obtain rfl : kind = kind' := isKind.symm.trans (sameFirst ▸ isKind')
  cases form with
  | word _ _ letters read =>
      cases form' with
      | word _ _ letters' read' =>
          obtain ⟨sameWord, sameRest⟩ :=
            word_append_inj letters letters' parted parted' same
          exact ⟨eqv_of_label basic read (sameWord ▸ read'), sameRest⟩
  | name name place =>
      cases form' with
      | name name' place' =>
          obtain ⟨rfl, sameRest⟩ := quotation.append_inj same
          exact ⟨eqv_of_label basic rfl rfl, sameRest⟩
  | unit place =>
      cases form' with
      | unit place' =>
          exact ⟨eqv_of_label rfl rfl rfl, List.append_cancel_left same⟩

end LeafForm

/-! ### Lists -/

variable {write : String → String}

/-- Induction on a basic term: the leaves, and then the pairs. -/
@[elab_as_elim]
theorem basicInduction (write : String → String)
    {motive : (term : Term) → term.isBasic = true → Prop}
    (onLeaf : ∀ kind leaf (basic : leaf.isBasic = true),
      LeafForm write kind leaf → motive leaf basic)
    (onPair : ∀ first second basicFirst basicSecond basic,
      motive first basicFirst → motive second basicSecond →
        motive (.pair first second) basic)
    (term : Term) (basic : term.isBasic = true) : motive term basic := by
  induction term with
  | pair first second onFirst onSecond =>
      have both := basic
      rw [isBasic, Bool.and_eq_true] at both
      exact onPair first second both.1 both.2 basic (onFirst both.1)
        (onSecond both.2)
  | _ =>
      rcases basic_cases write basic with ⟨kind, form⟩ | ⟨_, _, isPair, _⟩
      · exact onLeaf kind _ basic form
      · cases isPair

theorem spell_opening (quotation : Quotation write) {term : Term}
    (basic : term.isBasic = true) :
    ∃ c rest, term.spell write = c :: rest ∧ c ≠ ')' ∧ c ≠ '.' := by
  rcases basic_cases write basic with ⟨kind, form⟩ | ⟨first, second, rfl, _⟩
  · obtain ⟨c, rest, written, _, apart⟩ := form.opening quotation
    exact ⟨c, rest, form.spell_eq.trans written, apart⟩
  · exact ⟨'(', _, rfl, by decide, by decide⟩

/-- What follows the first element of a list is not part of a word. -/
theorem parted_spellRest {term : Term} (basic : term.isBasic = true)
    (rest : List Char) : Parted (term.spellRest write ++ rest) := by
  rcases basic_cases write basic with ⟨kind, form⟩ | ⟨first, second, rfl, _⟩
  · rw [form.spellRest_eq]
    split <;> exact parted_cons (by decide) _
  · exact parted_cons (by decide) _

/-- A list does not begin like a leaf: the empty list is closed at once. -/
theorem LeafForm.spell_ne_pair {kind : LeafKind} {leaf first second : Term}
    (quotation : Quotation write) (form : LeafForm write kind leaf)
    (basic : first.isBasic = true) (rest rest' : List Char) :
    leaf.spell write ++ rest ≠ (Term.pair first second).spell write ++ rest' := by
  intro same
  rw [form.spell_eq, spell] at same
  obtain ⟨c, tail, written, isKind, _⟩ := form.opening quotation
  have isBracket : c = '(' := by
    rw [written] at same
    exact (List.cons.inj same).1
  subst isBracket
  cases form with
  | word _ _ _ _ => cases isKind
  | name _ _ => cases isKind
  | unit place =>
      obtain ⟨d, _, opened, notClosed, _⟩ := spell_opening quotation basic
      rw [opened] at same
      simp [leafChars, Value.textBy, Value.text, notClosed.symm] at same

/-- The end of a list is not followed by another element. -/
theorem LeafForm.spellRest_ne_pair {kind : LeafKind} {leaf first second : Term}
    (quotation : Quotation write) (form : LeafForm write kind leaf)
    (basic : first.isBasic = true) (rest rest' : List Char) :
    leaf.spellRest write ++ rest ≠
      (Term.pair first second).spellRest write ++ rest' := by
  intro same
  obtain ⟨d, _, opened, _, noDot⟩ := spell_opening quotation basic
  rw [form.spellRest_eq, spellRest, opened] at same
  split at same
  · simp at same
  · simp [noDot.symm] at same

theorem eqv_of_isNil {left right : Term} (nil : left.isNil = true)
    (nil' : right.isNil = true) : left.eqv right = true := by
  cases left with
  | atom a =>
      cases right with
      | atom b =>
          obtain ⟨value, place⟩ := a
          obtain ⟨value', place'⟩ := b
          cases value <;> cases nil
          cases value' <;> cases nil'
          rfl
      | _ => cases nil'
  | _ => cases nil

/-- Two ends of lists are told apart. -/
theorem LeafForm.spellRest_append_inj {kind kind' : LeafKind} {leaf leaf' : Term}
    (quotation : Quotation write) (form : LeafForm write kind leaf)
    (form' : LeafForm write kind' leaf') (basic : leaf.isBasic = true)
    {rest rest' : List Char}
    (same : leaf.spellRest write ++ rest = leaf'.spellRest write ++ rest') :
    leaf.eqv leaf' = true ∧ rest = rest' := by
  rw [form.spellRest_eq, form'.spellRest_eq] at same
  cases nil : leaf.isNil with
  | true =>
      cases nil' : leaf'.isNil with
      | true =>
          simp only [nil, nil', if_true] at same
          exact ⟨eqv_of_isNil nil nil', List.append_cancel_left same⟩
      | false => simp [nil, nil'] at same
  | false =>
      cases nil' : leaf'.isNil with
      | true => simp [nil, nil'] at same
      | false =>
          simp only [nil, nil', Bool.false_eq_true, if_false, List.cons_append,
            List.append_assoc, List.cons.injEq, true_and, List.nil_append] at same
          obtain ⟨equal, sameEnd⟩ := form.append_inj quotation form' basic
            (parted_cons (by decide) _) (parted_cons (by decide) _) same
          exact ⟨equal, (List.cons.inj sameEnd).2⟩

/-- Two terms are told apart, whatever follows them, as long as it does not go on
with a word; and so are the rests of two lists. -/
theorem spell_append_inj (quotation : Quotation write) {left right : Term}
    (basic : left.isBasic = true) (basic' : right.isBasic = true) :
    (∀ rest rest', Parted rest → Parted rest' →
      left.spell write ++ rest = right.spell write ++ rest' →
        left.eqv right = true ∧ rest = rest') ∧
    ∀ rest rest',
      left.spellRest write ++ rest = right.spellRest write ++ rest' →
        left.eqv right = true ∧ rest = rest' := by
  induction left, basic using basicInduction write generalizing right with
  | onLeaf kind leaf basic form =>
      rcases basic_cases write basic' with
        ⟨kind', form'⟩ | ⟨first', second', rfl, basicFirst', _⟩
      · constructor
        · intro rest rest' parted parted' same
          rw [form.spell_eq, form'.spell_eq] at same
          exact form.append_inj quotation form' basic parted parted' same
        · intro rest rest' same
          exact form.spellRest_append_inj quotation form' basic same
      · constructor
        · intro rest rest' _ _ same
          exact absurd same (form.spell_ne_pair quotation basicFirst' _ _)
        · intro rest rest' same
          exact absurd same (form.spellRest_ne_pair quotation basicFirst' _ _)
  | onPair first second basicFirst basicSecond _ onFirst onSecond =>
      rcases basic_cases write basic' with
        ⟨kind', form'⟩ | ⟨first', second', rfl, basicFirst', basicSecond'⟩
      · constructor
        · intro rest rest' _ _ same
          exact absurd same.symm (form'.spell_ne_pair quotation basicFirst _ _)
        · intro rest rest' same
          exact absurd same.symm
            (form'.spellRest_ne_pair quotation basicFirst _ _)
      · -- Either way the first elements come next, and then what follows them.
        have onward : ∀ rest rest',
            first.spell write ++ (second.spellRest write ++ rest) =
              first'.spell write ++ (second'.spellRest write ++ rest') →
            (Term.pair first second).eqv (.pair first' second') = true ∧
              rest = rest' := by
          intro rest rest' same
          obtain ⟨equalFirst, sameRest⟩ := (onFirst basicFirst').1 _ _
            (parted_spellRest basicSecond _) (parted_spellRest basicSecond' _)
            same
          obtain ⟨equalSecond, sameEnd⟩ :=
            (onSecond basicSecond').2 _ _ sameRest
          exact ⟨by rw [eqv, equalFirst, equalSecond, Bool.and_self], sameEnd⟩
        constructor
        · intro rest rest' _ _ same
          simp only [spell, List.cons_append, List.append_assoc,
            List.cons.injEq, true_and] at same
          exact onward rest rest' same
        · intro rest rest' same
          simp only [spellRest, List.cons_append, List.append_assoc,
            List.cons.injEq, true_and] at same
          exact onward rest rest' same

/-- Basic terms with the same text are equal. -/
theorem eqv_of_textBy (quotation : Quotation write) {left right : Term}
    (basic : left.isBasic = true) (basic' : right.isBasic = true)
    (same : left.textBy write = right.textBy write) : left.eqv right = true := by
  have sameChars : left.spell write ++ [] = right.spell write ++ [] := by
    rw [String.ofList_injective same]
  exact ((spell_append_inj quotation basic basic').1 [] [] parted_nil parted_nil
    sameChars).1

end Term

/-! ### Substitutions -/

/-- The characters of a mapping. -/
def Mapping.spell (write : String → String) (mapping : Mapping) : List Char :=
  mapping.var.text.toList ++ ':' :: ' ' :: mapping.term.spell write

namespace Substitution

/-- True of the substitutions that bind variables to basic terms only. -/
def isBasic (s : Substitution) : Bool :=
  s.mappings.all fun mapping => mapping.term.isBasic

/-- The characters that follow the newest mapping. -/
def spellOlder (write : String → String) : List Mapping → List Char
  | [] => ['\x7d']
  | mapping :: older =>
    ',' :: ' ' :: (mapping.spell write ++ spellOlder write older)

/-- The characters of a list of mappings, newest first. -/
def spell (write : String → String) : List Mapping → List Char
  | [] => ['\x7b', '\x7d']
  | newest :: older =>
    '\x7b' :: (newest.spell write ++ spellOlder write older)

/-- The text of a substitution, with names quoted by `write`. -/
def textBy (write : String → String) (s : Substitution) : String :=
  String.ofList (spell write s.mappings)

theorem toList_writeMapping (written : String) (mapping : Mapping) :
    (writeMapping written mapping).toList =
      written.toList ++ mapping.spell quoteName := by
  simp [writeMapping, mapping.term.toList_write, Mapping.spell]

/-- Every older mapping is appended behind a comma. -/
theorem toList_foldl_writeMapping (older : List Mapping) (written : String) :
    (older.foldl (fun written mapping => writeMapping (written ++ ", ") mapping)
      written ++ "\x7d").toList = written.toList ++ spellOlder quoteName older := by
  induction older generalizing written with
  | nil => simp [spellOlder]
  | cons mapping older onOlder =>
      rw [List.foldl_cons, onOlder, toList_writeMapping]
      simp [spellOlder]

/-- The text of a substitution quotes names as texts are quoted. -/
theorem text_eq_textBy (s : Substitution) : s.text = s.textBy quoteName := by
  rw [← String.toList_inj, text, write, textBy]
  cases s.mappings with
  | nil => simp [spell]
  | cons newest older =>
      simp only [toList_foldl_writeMapping, toList_writeMapping]
      simp [spell]

variable {write : String → String}

/-- A mapping is told apart from what follows it. -/
theorem mapping_append_inj (quotation : Quotation write)
    {mapping mapping' : Mapping} (basic : mapping.term.isBasic = true)
    (basic' : mapping'.term.isBasic = true) {rest rest' : List Char}
    (parted : Parted rest) (parted' : Parted rest')
    (same : mapping.spell write ++ rest = mapping'.spell write ++ rest') :
    mapping.Similar mapping' ∧ rest = rest' := by
  have sameVar : (Term.var mapping.var).spell write ++
      (':' :: ' ' :: (mapping.term.spell write ++ rest)) =
        (Term.var mapping'.var).spell write ++
          (':' :: ' ' :: (mapping'.term.spell write ++ rest')) := by
    simpa [Mapping.spell, Term.spell, Term.leafChars] using same
  obtain ⟨equalVar, sameTerm⟩ :=
    (Term.spell_append_inj quotation rfl rfl).1 _ _ (parted_cons (by decide) _)
      (parted_cons (by decide) _) sameVar
  simp only [List.cons.injEq, true_and] at sameTerm
  obtain ⟨equalTerm, sameRest⟩ :=
    (Term.spell_append_inj quotation basic basic').1 _ _ parted parted' sameTerm
  exact ⟨⟨of_decide_eq_true equalVar, equalTerm⟩, sameRest⟩

theorem parted_spellOlder (mappings : List Mapping) :
    Parted (spellOlder write mappings) := by
  cases mappings with
  | nil => exact parted_cons (by decide) _
  | cons mapping older => exact parted_cons (by decide) _

theorem similar_of_spellOlder (quotation : Quotation write)
    {older older' : List Mapping}
    (basic : ∀ mapping ∈ older, mapping.term.isBasic = true)
    (basic' : ∀ mapping ∈ older', mapping.term.isBasic = true)
    (same : spellOlder write older = spellOlder write older') :
    List.Forall₂ Mapping.Similar older older' := by
  induction older generalizing older' with
  | nil =>
      cases older' with
      | nil => exact .nil
      | cons mapping' older' => simp [spellOlder] at same
  | cons mapping older onOlder =>
      cases older' with
      | nil => simp [spellOlder] at same
      | cons mapping' older' =>
          rw [List.forall_mem_cons] at basic basic'
          simp only [spellOlder, List.cons.injEq, true_and] at same
          obtain ⟨similar, sameOlder⟩ := mapping_append_inj quotation basic.1
            basic'.1 (parted_spellOlder _) (parted_spellOlder _) same
          exact .cons similar (onOlder basic.2 basic'.2 sameOlder)

/-- The newest mapping follows the opening brace, and the others follow behind
commas. -/
theorem similar_of_spell (quotation : Quotation write)
    {mappings mappings' : List Mapping}
    (basic : ∀ mapping ∈ mappings, mapping.term.isBasic = true)
    (basic' : ∀ mapping ∈ mappings', mapping.term.isBasic = true)
    (same : spell write mappings = spell write mappings') :
    List.Forall₂ Mapping.Similar mappings mappings' := by
  have notEmpty : ∀ newest older,
      spell write (newest :: older) ≠ spell write [] := by
    simp [spell, Mapping.spell, Var.text]
  cases mappings with
  | nil =>
      cases mappings' with
      | nil => exact .nil
      | cons newest' older' => exact absurd same.symm (notEmpty newest' older')
  | cons newest older =>
      cases mappings' with
      | nil => exact absurd same (notEmpty newest older)
      | cons newest' older' =>
          -- Behind a comma all of them are told apart as the older ones are.
          refine similar_of_spellOlder quotation basic basic' ?_
          simp only [spell, List.cons.injEq, true_and] at same
          simp only [spellOlder, same]

/-- Substitutions by basic terms with the same text are equal. -/
theorem eqv_of_textBy (quotation : Quotation write) {s s' : Substitution}
    (basic : s.isBasic = true) (basic' : s'.isBasic = true)
    (same : s.textBy write = s'.textBy write) : s.eqv s' = true := by
  rw [isBasic, List.all_eq_true] at basic basic'
  exact eqv_iff_similar.2 (similar_of_spell quotation basic basic'
    (String.ofList_injective same))

end Substitution

/-- Terms with the same text are equal, and substitutions with the same text hold
the same mappings in the same order, as long as the leaves are variables and basic
values.  The way in which names are written does not matter for that: they may be
quoted in any way in which different names are quoted differently. -/
theorem text_unambiguous :
    (∀ a b : Term, a.isBasic = true → b.isBasic = true →
      a.text = b.text → a.eqv b = true) ∧
    (∀ s s' : Substitution, s.isBasic = true → s'.isBasic = true →
      s.text = s'.text → s.eqv s' = true) ∧
    ∀ write, Quotation write →
      (∀ a b : Term, a.isBasic = true → b.isBasic = true →
        a.textBy write = b.textBy write → a.eqv b = true) ∧
      ∀ s s' : Substitution, s.isBasic = true → s'.isBasic = true →
        s.textBy write = s'.textBy write → s.eqv s' = true := by
  have general : ∀ write, Quotation write →
      (∀ a b : Term, a.isBasic = true → b.isBasic = true →
        a.textBy write = b.textBy write → a.eqv b = true) ∧
      ∀ s s' : Substitution, s.isBasic = true → s'.isBasic = true →
        s.textBy write = s'.textBy write → s.eqv s' = true :=
    fun write quotation =>
      ⟨fun _ _ => Term.eqv_of_textBy quotation,
        fun _ _ => Substitution.eqv_of_textBy quotation⟩
  obtain ⟨terms, substitutions⟩ := general quoteName Text.quotation_quoted
  refine ⟨?_, ?_, general⟩
  · intro a b basic basic' same
    rw [a.text_eq_textBy, b.text_eq_textBy] at same
    exact terms a b basic basic' same
  · intro s s' basic basic' same
    rw [s.text_eq_textBy, s'.text_eq_textBy] at same
    exact substitutions s s' basic basic' same

/-- A list of the names `x` and `y` is not written like the list of one name that
has a quote, a blank and a quote between these letters, and a variable bound to
the one not like a variable bound to the other. -/
theorem text_unambiguous_quotes :
    ∃ (two one : Term) (s s' : Substitution),
      two.text = "(\x22x\x22 \x22y\x22)" ∧ two.text ≠ one.text ∧
        s.text ≠ s'.text ∧ two.textBy quoteName ≠ one.textBy quoteName ∧
          s.textBy quoteName ≠ s'.textBy quoteName := by
  let name (content : String) : Term := .atom ⟨.symbol content, .root 0⟩
  let nil : Term := .atom ⟨.unit, .root 0⟩
  let two : Term := .pair (name "x") (.pair (name "y") nil)
  let one : Term := .pair (name "x\x22 \x22y") nil
  let x : Var := ⟨0, by decide⟩
  let s : Substitution := .prepend .empty ⟨x, two⟩
  let s' : Substitution := .prepend .empty ⟨x, one⟩
  have apart : two.eqv one ≠ true := by decide
  have apart' : s.eqv s' ≠ true := by decide
  obtain ⟨terms, substitutions, general⟩ := text_unambiguous
  obtain ⟨termsBy, substitutionsBy⟩ := general quoteName Text.quotation_quoted
  exact ⟨two, one, s, s', by decide,
    fun same => apart (terms two one rfl rfl same),
    fun same => apart' (substitutions s s' rfl rfl same),
    fun same => apart (termsBy two one rfl rfl same),
    fun same => apart' (substitutionsBy s s' rfl rfl same)⟩

end Relational
