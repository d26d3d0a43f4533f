/-
Module: Relational.Value
Purpose: The values that atoms carry, their equality and their text.
Main exports: Value, Value.eqv, Value.exists_classOf, Value.text
-/
import Relational.Decimal.Layout
import Relational.Text.Quoted
import Relational.Var

namespace Relational

/-!
Values of different types are never equal: a whole number of one width differs from the same number
of another width, and a symbol differs from a text with the same characters.  Within a type,
equality is the type's own.  It is symmetric and transitive everywhere.  It need not be reflexive:
a floating-point word that is not a number differs from itself, and so may a value of a type that
a caller has defined.

Callers define their own equality, of which nothing is known but that it is symmetric and
transitive.  Such an equality sorts the values that equal themselves into classes and leaves the
others out, so a value of such a type carries its class.
-/

/-- Widths of whole numbers; `word` is the machine's own width. -/
inductive Width where
  | bits8
  | bits16
  | bits32
  | bits64
  | bits128
  | word
deriving DecidableEq, Repr

/-- A type of whole numbers. -/
structure IntegerType where
  signed : Bool
  width : Width
deriving DecidableEq, Repr

/-- The values that atoms carry. -/
inductive Value where
  /-- The one value of the unit type, which ends a proper list. -/
  | unit
  | bool (truth : Bool)
  | integer (type : IntegerType) (number : Int)
  /-- A floating-point word, by its bits. -/
  | float (precision : Precision) (bits : Nat)
  | char (character : Char)
  /-- A fixed name of the program. -/
  | symbol (name : String)
  /-- A text made at run time. -/
  | string (content : String)
  /-- A value behind one indirection; it prints like the value. -/
  | boxed (content : Value)
  /-- A value of a caller-defined type that wraps a text.  It equals the values of its type that are
  in its class, and nothing if it has none; unless the type says otherwise, the text is the
  class. -/
  | tagged (type : String) (content : String) (eqClass : Option String := some content)
  /-- The name of an unbound variable in an answer. -/
  | reified (number : Nat)
deriving DecidableEq, Repr

namespace Value

/-- Equality of values: same type, and equal by the rule of that type. -/
def eqv : Value → Value → Bool
  | .float leftPrecision left, .float rightPrecision right =>
    decide (leftPrecision = rightPrecision) && leftPrecision.sameNumber left right
  | .boxed left, .boxed right => eqv left right
  | .tagged leftType _ left, .tagged rightType _ right =>
    decide (leftType = rightType) && left.isSome && decide (left = right)
  | left, right => decide (left = right)

theorem eqv_symm (left right : Value) : eqv left right = eqv right left := by
  induction left generalizing right with
  | boxed left hypothesis =>
      cases right <;> simp [eqv, hypothesis]
  | float precision bits =>
      cases right with
      | float otherPrecision otherBits =>
          by_cases same : precision = otherPrecision
          · subst same
            simp [eqv, precision.sameNumber_symm bits]
          · simp [eqv, same, Ne.symm same]
      | _ => simp [eqv]
  | tagged type content eqClass =>
      cases right with
      | tagged otherType otherContent otherClass =>
          by_cases same : eqClass = otherClass
          · simp [eqv, same, eq_comm]
          · simp [eqv, same, Ne.symm same]
      | _ => simp [eqv]
  | _ => cases right <;> simp [eqv, eq_comm]

theorem eqv_trans {left middle right : Value}
    (first : eqv left middle = true) (second : eqv middle right = true) :
    eqv left right = true := by
  induction left generalizing middle right with
  | boxed left hypothesis =>
      cases middle with
      | boxed middle =>
          cases right with
          | boxed right => exact hypothesis first second
          | _ => simp [eqv] at second
      | _ => simp [eqv] at first
  | float precision bits =>
      cases middle with
      | float middlePrecision middleBits =>
          cases right with
          | float rightPrecision rightBits =>
              simp only [eqv, Bool.and_eq_true, decide_eq_true_eq] at first second ⊢
              obtain ⟨rfl, leftMiddle⟩ := first
              obtain ⟨rfl, middleRight⟩ := second
              exact ⟨rfl, Precision.sameNumber_trans _ leftMiddle middleRight⟩
          | _ => simp [eqv] at second
      | _ => simp [eqv] at first
  | tagged type content eqClass =>
      cases middle with
      | tagged middleType middleContent middleClass =>
          cases right with
          | tagged rightType rightContent rightClass =>
              simp only [eqv, Bool.and_eq_true, decide_eq_true_eq] at first second ⊢
              obtain ⟨⟨rfl, inClass⟩, rfl⟩ := first
              exact second
          | _ => simp [eqv] at second
      | _ => simp [eqv] at first
  | _ => cases middle <;> cases right <;> simp_all [eqv]

/-- Whatever symmetric and transitive equality a caller defines for the values of a type, and
however they are shown, there are classes that give it.  The values have to be so many only that
texts can tell them apart. -/
theorem exists_classOf {α : Type} (type : String) (shown key : α → String)
    (injective : ∀ {a b}, key a = key b → a = b) {same : α → α → Prop}
    (symm : ∀ {a b}, same a b → same b a) (trans : ∀ {a b c}, same a b → same b c → same a c) :
    ∃ classOf : α → Option String, ∀ a b,
      eqv (.tagged type (shown a) (classOf a)) (.tagged type (shown b) (classOf b)) = true ↔
        same a b := by
  classical
  -- A class goes by one of the values that are in it.
  let member (a : α) : α := @Classical.epsilon α ⟨a⟩ (same a)
  have among : ∀ {a}, same a a → same a (member a) :=
    fun itself => Classical.epsilon_spec_aux _ _ ⟨_, itself⟩
  have oneMember : ∀ {a b}, same a b → member a = member b := by
    intro a b equal
    have members : same a = same b := funext fun c => propext ⟨trans (symm equal), trans equal⟩
    exact congrArg (@Classical.epsilon α ⟨a⟩) members
  refine ⟨fun a => if same a a then some (key (member a)) else none, fun a b => ?_⟩
  simp only [eqv, decide_true, Bool.true_and, Bool.and_eq_true, decide_eq_true_eq]
  constructor
  · rintro ⟨inClass, oneClass⟩
    by_cases itself : same a a
    · by_cases itself' : same b b
      · simp only [if_pos itself, if_pos itself', Option.some.injEq] at oneClass
        exact trans (among itself) (symm (injective oneClass ▸ among itself'))
      · simp [itself, itself'] at oneClass
    · simp [itself] at inClass
  · intro equal
    have itself : same a a := trans equal (symm equal)
    have itself' : same b b := trans (symm equal) equal
    simp only [if_pos itself, if_pos itself', oneMember equal, Option.isSome_some, and_self]

/-- A type whose values are equal up to the case of their letters. -/
example : eqv (.tagged "Word" "A" (some "a")) (.tagged "Word" "a" (some "a")) = true := rfl

/-- The text of a value. -/
def text : Value → String
  | .unit => "()"
  | .bool truth => if truth then "true" else "false"
  | .integer _ number => toString number
  | .float precision bits => precision.text bits
  | .char character => Text.quoted .character [character]
  | .symbol name => Text.quoted .text name.toList
  | .string content => Text.quoted .text content.toList
  | .boxed content => content.text
  | .tagged type content _ => type ++ "(" ++ Text.quoted .text content.toList ++ ")"
  | .reified number => reifiedName number

end Value

end Relational
