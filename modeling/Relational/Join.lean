/-
Module: Relational.Join
Purpose: Joining the members of a list by an operation.
Main exports: joinAll, joinAll_cons, joinAll_insert, apply_joinAll
-/

namespace Relational

/-!
Goals are joined to conjunctions and disjunctions, and streams to a merge, in one way: nested to the
right, and without anything added to a list of one.
-/

variable {κ κ' : Type}

/-- Joins a list from the last to the first.  A list of one is the only member itself, and the unit
stands for the empty list. -/
def joinAll (unit : κ) (join : κ → κ → κ) : List κ → κ
  | [] => unit
  | [last] => last
  | first :: rest => join first (joinAll unit join rest)

theorem joinAll_cons (unit : κ) (join : κ → κ → κ) (first : κ) {rest : List κ}
    (several : rest ≠ []) :
    joinAll unit join (first :: rest) = join first (joinAll unit join rest) := by
  cases rest with
  | nil => exact absurd rfl several
  | cons next rest => rfl

/-- A function that respects the operation can be applied to the members. -/
theorem apply_joinAll {unit : κ} {unit' : κ'} {join : κ → κ → κ} {join' : κ' → κ' → κ'}
    (f : κ → κ') (units : f unit = unit')
    (joins : ∀ first rest, f (join first rest) = join' (f first) (f rest)) (list : List κ) :
    f (joinAll unit join list) = joinAll unit' join' (list.map f) := by
  induction list with
  | nil => exact units
  | cons first rest onRest =>
      cases rest with
      | nil => rfl
      | cons next rest => exact (joins _ _).trans (congrArg (join' (f first)) onRest)

/-- All members of a list are true if they are together. -/
theorem joinAll_and (list : List Bool) : joinAll true and list = list.all id := by
  induction list with
  | nil => rfl
  | cons first rest onRest =>
      cases rest with
      | nil => exact (Bool.and_true first).symm
      | cons next rest => exact congrArg (first && ·) onRest

/-- A unit can be put into the list anywhere. -/
theorem joinAll_insert {unit : κ} {join : κ → κ → κ} {same : κ → κ → Prop}
    (refl : ∀ member, same member member)
    (unitFirst : ∀ member, same (join unit member) member)
    (unitLast : ∀ member, same (join member unit) member)
    (inside : ∀ first {rest rest'}, same rest rest' → same (join first rest) (join first rest'))
    (before after : List κ) :
    same (joinAll unit join (before ++ unit :: after)) (joinAll unit join (before ++ after)) := by
  induction before with
  | nil =>
      cases after with
      | nil => exact refl unit
      | cons next after => exact unitFirst _
  | cons first before onRest =>
      have several : before ++ unit :: after ≠ [] := by simp
      rw [List.cons_append, joinAll_cons unit join first several, List.cons_append]
      -- With nothing else in the list, the unit is what the first member is joined with.
      cases others : before ++ after with
      | nil =>
          obtain ⟨rfl, rfl⟩ := List.append_eq_nil_iff.1 others
          exact unitLast first
      | cons next rest =>
          rw [others] at onRest
          exact inside first onRest

end Relational
