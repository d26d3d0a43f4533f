/-
Module: Relational.Substitution.Basic
Purpose: Substitutions, walking along bindings, the occurs check and extension.
Main exports: Mapping, Substitution, Substitution.lookup, Substitution.walk, Substitution.occurs,
  Substitution.extend, Failure
-/
import Relational.Term.Basic

namespace Relational

/-!
A substitution is a list of mappings, newest first, and the newest mapping of a variable is the one
that counts.  It is kept in triangular form: a bound term may contain variables that are bound
elsewhere in the list.

Nothing in the type rules out a cycle of bindings, because `extend` may give a new term to a
variable that is bound already.  Following bindings is therefore bounded by the number of mappings.
The bound is exact: a path that crosses more bindings than there are mappings crosses one of them
twice, and would never end.
-/

/-- One variable bound to one term. -/
structure Mapping where
  var : Var
  term : Term
deriving DecidableEq, Repr

/-- Mappings are equal when they bind the same variable to equal terms. -/
def Mapping.eqv (left right : Mapping) : Bool :=
  decide (left.var = right.var) && left.term.equals right.term

/-- A list of mappings, newest first, kept together with its length. -/
structure Substitution where
  mappings : List Mapping
  /-- Number of mappings. -/
  size : Nat
  size_eq : size = mappings.length
deriving DecidableEq, Repr

/-- Why two terms cannot be made equal. -/
inductive Failure where
  /-- Two terms that no binding can make equal. -/
  | mismatch (left right : Term)
  /-- A variable that would have to contain itself. -/
  | occurs (var : Var) (term : Term)
deriving DecidableEq, Repr

namespace Failure

/-- True of a failed occurs check. -/
def isOccurs : Failure → Bool
  | .occurs .. => true
  | .mismatch .. => false

/-- Failures are equal when they have the same cause and equal terms. -/
def eqv : Failure → Failure → Bool
  | .mismatch left right, .mismatch left' right' => left.equals left' && right.equals right'
  | .occurs var term, .occurs var' term' => decide (var = var') && term.equals term'
  | _, _ => false

end Failure

namespace Substitution

/-- Nothing counts but the mappings. -/
@[ext]
theorem ext {s s' : Substitution} (mappings : s.mappings = s'.mappings) : s = s' := by
  obtain ⟨list, size, rfl⟩ := s
  obtain ⟨list', size', rfl⟩ := s'
  cases mappings
  rfl

/-- The substitution without mappings. -/
def empty : Substitution := ⟨[], 0, rfl⟩

/-- True of the substitution without mappings. -/
def isEmpty (s : Substitution) : Bool := s.mappings.isEmpty

/-- Substitutions are equal when they hold equal mappings in the same order. -/
def eqv (left right : Substitution) : Bool :=
  go left.mappings right.mappings
where
  /-- Compares two lists of mappings. -/
  go : List Mapping → List Mapping → Bool
    | [], [] => true
    | left :: lefts, right :: rights => left.eqv right && go lefts rights
    | _, _ => false

/-- Adds a mapping without any check. -/
def prepend (s : Substitution) (mapping : Mapping) : Substitution :=
  ⟨mapping :: s.mappings, s.size + 1, by simp [s.size_eq]⟩

/-- The term of the newest mapping of a variable. -/
def lookup (s : Substitution) (x : Var) : Option Term :=
  go s.mappings
where
  /-- Searches a list of mappings from its front. -/
  go : List Mapping → Option Term
    | [] => none
    | mapping :: older => if mapping.var = x then some mapping.term else go older

/-- Follows bindings from variable to variable, at most `limit` times. -/
def follow (s : Substitution) : Nat → Var → Term
  | 0, x => .var x
  | limit + 1, x =>
    match s.lookup x with
    | none => .var x
    | some (.var y) => s.follow limit y
    | some term => term

/-- The end of the chain of bindings that starts at a term: an unbound variable, an atom or a
pair. -/
def walk (s : Substitution) : Term → Term
  | .var x => s.follow s.size x
  | term => term

/-- True when the variable is met in a term, also behind bindings, crossing at most `limit` of
them on any path. -/
def occursWithin (s : Substitution) (x : Var) : Nat → Term → Bool
  | 0 => Term.anyVar fun y => decide (y = x)
  | limit + 1 => Term.anyVar fun y =>
    match s.walk (.var y) with
    | .var z => decide (z = x)
    | .atom _ => false
    | .pair first second => s.occursWithin x limit (.pair first second)

/-- The occurs check: true when the variable is met in the term under the substitution. -/
def occurs (s : Substitution) (x : Var) (term : Term) : Bool :=
  s.occursWithin x s.size term

/-- Binds a variable, unless it occurs in the term. -/
def extend (s : Substitution) (x : Var) (term : Term) : Except Failure Substitution :=
  if s.occurs x term then .error (.occurs x term) else .ok (s.prepend ⟨x, term⟩)

/-- Binds variables one after the other until a binding fails. -/
def extendAll (s : Substitution) (mappings : List Mapping) : Except Failure Substitution :=
  mappings.foldlM (fun s mapping => s.extend mapping.var mapping.term) s

theorem lookup_prepend (s : Substitution) (mapping : Mapping) (x : Var) :
    (s.prepend mapping).lookup x = if mapping.var = x then some mapping.term else s.lookup x :=
  rfl

theorem mappings_prepend (s : Substitution) (mapping : Mapping) :
    (s.prepend mapping).mappings = mapping :: s.mappings := rfl

theorem size_prepend (s : Substitution) (mapping : Mapping) :
    (s.prepend mapping).size = s.size + 1 := rfl

theorem extend_eq_error_iff (s : Substitution) (x : Var) (term : Term) (failure : Failure) :
    s.extend x term = .error failure ↔ s.occurs x term = true ∧ failure = .occurs x term := by
  by_cases occurring : s.occurs x term <;> simp [extend, occurring, eq_comm]

theorem extend_eq_ok_iff (s s' : Substitution) (x : Var) (term : Term) :
    s.extend x term = .ok s' ↔ s.occurs x term = false ∧ s' = s.prepend ⟨x, term⟩ := by
  by_cases occurring : s.occurs x term <;> simp [extend, occurring, eq_comm]

end Substitution

end Relational
