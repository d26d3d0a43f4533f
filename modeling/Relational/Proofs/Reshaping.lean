/-
Module: Relational.Proofs.Reshaping
Purpose: Rewriting the shape of a goal keeps its answers, and how often it has
  them.
Main exports: Goal.Reshaped, Program.Reshaped, Goal.SamePaths,
  Goal.Reshaped.samePaths, Goal.samePaths_program, Goal.exists_pairing,
  Goal.answers, Goal.reshaped_answers
-/
import Relational.Proofs.Commutation
import Relational.Proofs.Multiplicity

namespace Relational

/-!
Rewriting a goal moves its parts to other places, and the search comes upon its
answers in another order.  It does not change what can be chosen: the ways in
which the goal can hold are those of the rewritten goal, with the same choices
in other brackets.  Along partners the same equations are met in the same order,
with the same variables, so they lead to the same state.

A relation may call itself, so the parts of a relation's body are not parts of
the goal that calls it.  The ways through a rewritten program are compared by
going along a path, and that this meets every path is proved by induction on the
calls of the path.
-/

/-! ### Rewriting -/

/-- The one goal becomes the other one by rewriting parts of it. -/
inductive Goal.Reshaped : Goal → Goal → Prop where
  | refl (goal : Goal) : Reshaped goal goal
  | symm {goal goal' : Goal} (reshaped : Reshaped goal goal') :
      Reshaped goal' goal
  | trans {goal goal' goal'' : Goal} (first : Reshaped goal goal')
      (second : Reshaped goal' goal'') : Reshaped goal goal''
  | disj {left left' right right' : Goal} (onLeft : Reshaped left left')
      (onRight : Reshaped right right') :
      Reshaped (.disj left right) (.disj left' right')
  | conj {first first' second second' : Goal} (onFirst : Reshaped first first')
      (onSecond : Reshaped second second') :
      Reshaped (.conj first second) (.conj first' second')
  | fresh {body body' : Goal} (name : String) (inside : Reshaped body body') :
      Reshaped (.fresh name body) (.fresh name body')
  /-- Parts may be put off. -/
  | suspend (body : Goal) : Reshaped body (.suspend body)
  /-- Brackets may stand elsewhere. -/
  | conjAssoc (first second third : Goal) :
      Reshaped (.conj (.conj first second) third)
        (.conj first (.conj second third))
  | disjAssoc (first second third : Goal) :
      Reshaped (.disj (.disj first second) third)
        (.disj first (.disj second third))
  /-- The sides of a disjunction may be exchanged. -/
  | disjComm (left right : Goal) :
      Reshaped (.disj left right) (.disj right left)
  /-- A conjunction may be distributed over a disjunction on either side. -/
  | conjDisj (first left right : Goal) :
      Reshaped (.conj first (.disj left right))
        (.disj (.conj first left) (.conj first right))
  | disjConj (left right second : Goal) :
      Reshaped (.conj (.disj left right) second)
        (.disj (.conj left second) (.conj right second))

/-- The relation has the same parameters and a rewritten body. -/
structure Relation.Reshaped (relation relation' : Relation) : Prop where
  parameters : relation.parameters = relation'.parameters
  body : relation.body.Reshaped relation'.body

/-- The same relations with rewritten bodies. -/
def Program.Reshaped (program program' : Program) : Prop :=
  List.Forall₂ (fun entry entry' =>
    entry.1 = entry'.1 ∧ entry.2.Reshaped entry'.2) program program'

theorem Program.Reshaped.find? {program program' : Program}
    (reshaped : program.Reshaped program') (name : String) :
    Option.Rel Relation.Reshaped (program.find? name)
      (program'.find? name) := by
  induction reshaped with
  | nil => exact .none
  | @cons entry entry' older older' pair _ onOlder =>
      rcases entry with ⟨key, relation⟩
      rcases entry' with ⟨key', relation'⟩
      rcases pair with ⟨rfl, relations⟩
      by_cases same : name = key
      · subst same
        simpa [Program.find?] using Option.Rel.some relations
      · have different : (name == key) = false := by simpa using same
        simpa [Program.find?, List.lookup_cons, different] using onOlder

/-- Rewriting a goal moves its expressions, and brings in no others. -/
theorem Goal.Reshaped.every {goal goal' : Goal}
    (reshaped : goal.Reshaped goal') (test : Expr → Bool) :
    goal.every test = goal'.every test := by
  induction reshaped with
  | refl goal => rfl
  | symm _ inside => exact inside.symm
  | trans _ _ first second => exact first.trans second
  | disj _ _ onLeft onRight => rw [Goal.every, Goal.every, onLeft, onRight]
  | conj _ _ onFirst onSecond =>
      rw [Goal.every, Goal.every, onFirst, onSecond]
  | fresh name _ inside => exact inside
  | suspend body => rfl
  | conjAssoc first second third => exact Bool.and_assoc ..
  | disjAssoc first second third => exact Bool.and_assoc ..
  | disjComm left right => exact Bool.and_comm ..
  | conjDisj first left right =>
      simp only [Goal.every]
      cases first.every test <;> simp
  | disjConj left right second =>
      simp only [Goal.every]
      cases second.every test <;> simp

theorem Program.Reshaped.every {program program' : Program}
    (reshaped : program.Reshaped program') (test : Expr → Bool) :
    program.every test = program'.every test := by
  induction reshaped with
  | nil => rfl
  | cons pair _ onOlder =>
      rw [Program.every, List.all_cons, pair.2.body.every test]
      exact congrArg _ onOlder

/-! ### Paths with the same equations -/

namespace Goal

variable {program program' program'' : Program} {goal goal' goal'' : Goal}

/-- How many calls there are along the path. -/
def Path.calls : {goal : Goal} → Path program goal → Nat
  | _, .succeed => 0
  | _, .always unfolded => unfolded.calls
  | _, .eq => 0
  | _, .disjLeft onLeft => onLeft.calls
  | _, .disjRight onRight => onRight.calls
  | _, .conj onFirst onSecond => onFirst.calls + onSecond.calls
  | _, .fresh inside => inside.calls
  | _, .suspend inside => inside.calls
  | _, .call _ _ inside => inside.calls + 1
  | _, .times _ => 0

/-- The paths introduce as many variables, make as many calls, and meet the same
equations in the same order. -/
structure Path.Alike (path : Path program goal) (path' : Path program' goal') :
    Prop where
  count : path.count = path'.count
  calls : path.calls = path'.calls
  equations : ∀ scope supply,
    path.equations scope supply = path'.equations scope supply

/-- The ways in which the goals can hold are in bijection, and partners are
alike. -/
def SamePaths (program program' : Program) (goal goal' : Goal) : Prop :=
  ∃ pairing : Path program goal ≃ Path program' goal',
    ∀ path : Path program goal, path.Alike (pairing path)

namespace Path.Alike

theorem refl (path : Path program goal) : path.Alike path :=
  ⟨rfl, rfl, fun _ _ => rfl⟩

theorem symm {path : Path program goal} {path' : Path program' goal'}
    (alike : path.Alike path') : path'.Alike path :=
  ⟨alike.count.symm, alike.calls.symm, fun scope supply =>
    (alike.equations scope supply).symm⟩

theorem trans {path : Path program goal} {path' : Path program' goal'}
    {path'' : Path program'' goal''} (first : path.Alike path')
    (second : path'.Alike path'') : path.Alike path'' :=
  ⟨first.count.trans second.count, first.calls.trans second.calls,
    fun scope supply => (first.equations scope supply).trans
      (second.equations scope supply)⟩

theorem disjLeft {left left' : Goal} {onLeft : Path program left}
    {onLeft' : Path program' left'} (alike : onLeft.Alike onLeft')
    (right right' : Goal) :
    (Path.disjLeft onLeft : Path program (.disj left right)).Alike
      (Path.disjLeft onLeft' : Path program' (.disj left' right')) :=
  ⟨alike.count, alike.calls, alike.equations⟩

theorem disjRight {right right' : Goal} {onRight : Path program right}
    {onRight' : Path program' right'} (alike : onRight.Alike onRight')
    (left left' : Goal) :
    (Path.disjRight onRight : Path program (.disj left right)).Alike
      (Path.disjRight onRight' : Path program' (.disj left' right')) :=
  ⟨alike.count, alike.calls, alike.equations⟩

theorem conj {first first' second second' : Goal}
    {onFirst : Path program first} {onFirst' : Path program' first'}
    {onSecond : Path program second} {onSecond' : Path program' second'}
    (firsts : onFirst.Alike onFirst') (seconds : onSecond.Alike onSecond') :
    (Path.conj onFirst onSecond).Alike (Path.conj onFirst' onSecond') where
  count := congrArg₂ (· + ·) firsts.count seconds.count
  calls := congrArg₂ (· + ·) firsts.calls seconds.calls
  equations scope supply := by
    rw [Path.equations, Path.equations, firsts.equations, seconds.equations,
      firsts.count]

theorem fresh {body body' : Goal} {inside : Path program body}
    {inside' : Path program' body'} (insides : inside.Alike inside')
    (name : String) :
    (Path.fresh inside : Path program (.fresh name body)).Alike
      (Path.fresh inside' : Path program' (.fresh name body')) where
  count := congrArg (· + 1) insides.count
  calls := insides.calls
  equations _ _ := insides.equations _ _

end Path.Alike

/-! ### Rearranging choices

Each rewriting of a goal rearranges the choices that its paths are made of, and
can be undone. -/

namespace Path

def disjCongr {left left' right right' : Goal}
    (lefts : Path program left ≃ Path program' left')
    (rights : Path program right ≃ Path program' right') :
    Path program (.disj left right) ≃ Path program' (.disj left' right') where
  toFun
    | .disjLeft onLeft => .disjLeft (lefts onLeft)
    | .disjRight onRight => .disjRight (rights onRight)
  invFun
    | .disjLeft onLeft => .disjLeft (lefts.symm onLeft)
    | .disjRight onRight => .disjRight (rights.symm onRight)
  left_inv path := by cases path <;> simp
  right_inv path := by cases path <;> simp

def conjCongr {first first' second second' : Goal}
    (firsts : Path program first ≃ Path program' first')
    (seconds : Path program second ≃ Path program' second') :
    Path program (.conj first second) ≃
      Path program' (.conj first' second') where
  toFun | .conj onFirst onSecond => .conj (firsts onFirst) (seconds onSecond)
  invFun
    | .conj onFirst onSecond =>
      .conj (firsts.symm onFirst) (seconds.symm onSecond)
  left_inv path := by cases path; simp
  right_inv path := by cases path; simp

def freshCongr {body body' : Goal}
    (bodies : Path program body ≃ Path program' body') (name : String) :
    Path program (.fresh name body) ≃ Path program' (.fresh name body') where
  toFun | .fresh inside => .fresh (bodies inside)
  invFun | .fresh inside => .fresh (bodies.symm inside)
  left_inv path := by cases path; simp
  right_inv path := by cases path; simp

def putOff (body : Goal) : Path program body ≃ Path program (.suspend body)
    where
  toFun := .suspend
  invFun | .suspend inside => inside
  left_inv _ := rfl
  right_inv path := by cases path; rfl

def rebracketConj (first second third : Goal) :
    Path program (.conj (.conj first second) third) ≃
      Path program (.conj first (.conj second third)) where
  toFun | .conj (.conj p q) r => .conj p (.conj q r)
  invFun | .conj p (.conj q r) => .conj (.conj p q) r
  left_inv | .conj (.conj _ _) _ => rfl
  right_inv | .conj _ (.conj _ _) => rfl

def rebracketDisj (first second third : Goal) :
    Path program (.disj (.disj first second) third) ≃
      Path program (.disj first (.disj second third)) where
  toFun
    | .disjLeft (.disjLeft p) => .disjLeft p
    | .disjLeft (.disjRight q) => .disjRight (.disjLeft q)
    | .disjRight r => .disjRight (.disjRight r)
  invFun
    | .disjLeft p => .disjLeft (.disjLeft p)
    | .disjRight (.disjLeft q) => .disjLeft (.disjRight q)
    | .disjRight (.disjRight r) => .disjRight r
  left_inv
    | .disjLeft (.disjLeft _) => rfl
    | .disjLeft (.disjRight _) => rfl
    | .disjRight _ => rfl
  right_inv
    | .disjLeft _ => rfl
    | .disjRight (.disjLeft _) => rfl
    | .disjRight (.disjRight _) => rfl

def exchangeDisj (left right : Goal) :
    Path program (.disj left right) ≃ Path program (.disj right left) where
  toFun
    | .disjLeft p => .disjRight p
    | .disjRight q => .disjLeft q
  invFun
    | .disjLeft q => .disjRight q
    | .disjRight p => .disjLeft p
  left_inv path := by cases path <;> rfl
  right_inv path := by cases path <;> rfl

def distributeLeft (first left right : Goal) :
    Path program (.conj first (.disj left right)) ≃
      Path program (.disj (.conj first left) (.conj first right)) where
  toFun
    | .conj p (.disjLeft q) => .disjLeft (.conj p q)
    | .conj p (.disjRight r) => .disjRight (.conj p r)
  invFun
    | .disjLeft (.conj p q) => .conj p (.disjLeft q)
    | .disjRight (.conj p r) => .conj p (.disjRight r)
  left_inv
    | .conj _ (.disjLeft _) => rfl
    | .conj _ (.disjRight _) => rfl
  right_inv
    | .disjLeft (.conj _ _) => rfl
    | .disjRight (.conj _ _) => rfl

def distributeRight (left right second : Goal) :
    Path program (.conj (.disj left right) second) ≃
      Path program (.disj (.conj left second) (.conj right second)) where
  toFun
    | .conj (.disjLeft p) r => .disjLeft (.conj p r)
    | .conj (.disjRight q) r => .disjRight (.conj q r)
  invFun
    | .disjLeft (.conj p r) => .conj (.disjLeft p) r
    | .disjRight (.conj q r) => .conj (.disjRight q) r
  left_inv
    | .conj (.disjLeft _) _ => rfl
    | .conj (.disjRight _) _ => rfl
  right_inv
    | .disjLeft (.conj _ _) => rfl
    | .disjRight (.conj _ _) => rfl

end Path

/-! ### Goals with the same paths -/

namespace SamePaths

theorem refl (program : Program) (goal : Goal) :
    SamePaths program program goal goal :=
  ⟨.refl _, fun path => .refl path⟩

theorem symm (same : SamePaths program program' goal goal') :
    SamePaths program' program goal' goal := by
  obtain ⟨pairing, alike⟩ := same
  refine ⟨pairing.symm, fun path => ?_⟩
  have back := alike (pairing.symm path)
  rw [pairing.apply_symm_apply] at back
  exact back.symm

theorem trans (first : SamePaths program program' goal goal')
    (second : SamePaths program' program'' goal' goal'') :
    SamePaths program program'' goal goal'' := by
  obtain ⟨pairing, alike⟩ := first
  obtain ⟨pairing', alike'⟩ := second
  exact ⟨pairing.trans pairing', fun path =>
    (alike path).trans (alike' (pairing path))⟩

theorem disj {left left' right right' : Goal}
    (lefts : SamePaths program program' left left')
    (rights : SamePaths program program' right right') :
    SamePaths program program' (.disj left right) (.disj left' right') := by
  obtain ⟨pairing, alike⟩ := lefts
  obtain ⟨pairing', alike'⟩ := rights
  refine ⟨Path.disjCongr pairing pairing', fun path => ?_⟩
  cases path with
  | disjLeft onLeft => exact (alike onLeft).disjLeft right right'
  | disjRight onRight => exact (alike' onRight).disjRight left left'

theorem conj {first first' second second' : Goal}
    (firsts : SamePaths program program' first first')
    (seconds : SamePaths program program' second second') :
    SamePaths program program' (.conj first second)
      (.conj first' second') := by
  obtain ⟨pairing, alike⟩ := firsts
  obtain ⟨pairing', alike'⟩ := seconds
  refine ⟨Path.conjCongr pairing pairing', fun path => ?_⟩
  cases path with
  | conj onFirst onSecond => exact (alike onFirst).conj (alike' onSecond)

theorem fresh {body body' : Goal}
    (bodies : SamePaths program program' body body') (name : String) :
    SamePaths program program' (.fresh name body) (.fresh name body') := by
  obtain ⟨pairing, alike⟩ := bodies
  refine ⟨Path.freshCongr pairing name, fun path => ?_⟩
  cases path with
  | fresh inside => exact (alike inside).fresh name

variable (program)

theorem suspend (body : Goal) :
    SamePaths program program body (.suspend body) :=
  ⟨Path.putOff body, fun _ => ⟨rfl, rfl, fun _ _ => rfl⟩⟩

theorem conjAssoc (first second third : Goal) :
    SamePaths program program (.conj (.conj first second) third)
      (.conj first (.conj second third)) := by
  refine ⟨Path.rebracketConj first second third, fun path => ?_⟩
  cases path with
  | conj onFirstSecond r =>
      cases onFirstSecond with
      | conj p q =>
          refine ⟨Nat.add_assoc .., Nat.add_assoc .., fun scope supply => ?_⟩
          simp only [Path.equations, Path.count, List.append_assoc,
            Nat.add_assoc]
          rfl

theorem disjAssoc (first second third : Goal) :
    SamePaths program program (.disj (.disj first second) third)
      (.disj first (.disj second third)) := by
  refine ⟨Path.rebracketDisj first second third, fun path => ?_⟩
  cases path with
  | disjLeft onFirstSecond =>
      cases onFirstSecond <;> exact ⟨rfl, rfl, fun _ _ => rfl⟩
  | disjRight r => exact ⟨rfl, rfl, fun _ _ => rfl⟩

theorem disjComm (left right : Goal) :
    SamePaths program program (.disj left right) (.disj right left) := by
  refine ⟨Path.exchangeDisj left right, fun path => ?_⟩
  cases path <;> exact ⟨rfl, rfl, fun _ _ => rfl⟩

theorem conjDisj (first left right : Goal) :
    SamePaths program program (.conj first (.disj left right))
      (.disj (.conj first left) (.conj first right)) := by
  refine ⟨Path.distributeLeft first left right, fun path => ?_⟩
  cases path with
  | conj p onDisj => cases onDisj <;> exact ⟨rfl, rfl, fun _ _ => rfl⟩

theorem disjConj (left right second : Goal) :
    SamePaths program program (.conj (.disj left right) second)
      (.disj (.conj left second) (.conj right second)) := by
  refine ⟨Path.distributeRight left right second, fun path => ?_⟩
  cases path with
  | conj onDisj r => cases onDisj <;> exact ⟨rfl, rfl, fun _ _ => rfl⟩

end SamePaths

theorem Reshaped.samePaths (program : Program)
    (reshaped : goal.Reshaped goal') :
    SamePaths program program goal goal' := by
  induction reshaped with
  | refl goal => exact .refl program goal
  | symm _ inside => exact inside.symm
  | trans _ _ first second => exact first.trans second
  | disj _ _ onLeft onRight => exact onLeft.disj onRight
  | conj _ _ onFirst onSecond => exact onFirst.conj onSecond
  | fresh name _ inside => exact inside.fresh name
  | suspend body => exact .suspend program body
  | conjAssoc first second third => exact .conjAssoc program first second third
  | disjAssoc first second third => exact .disjAssoc program first second third
  | disjComm left right => exact .disjComm program left right
  | conjDisj first left right => exact .conjDisj program first left right
  | disjConj left right second => exact .disjConj program left right second

/-! ### Rewritten relations -/

/-- What has become of a relation in another program, and how the ways through
its body are rearranged there. -/
structure Partner (program' : Program) (name : String) (relation : Relation)
    where
  relation' : Relation
  found : program'.find? name = some relation'
  parameters : relation.parameters = relation'.parameters
  bodies : Path program' relation.body ≃ Path program' relation'.body
  alike : ∀ path : Path program' relation.body, path.Alike (bodies path)

theorem nonempty_partner (reshaped : program.Reshaped program') {name : String}
    {relation : Relation} (found : program.find? name = some relation) :
    Nonempty (Partner program' name relation) := by
  have related := reshaped.find? name
  rw [found] at related
  cases found' : program'.find? name with
  | none =>
      rw [found'] at related
      cases related
  | some relation' =>
      rw [found'] at related
      cases related with
      | some relations =>
          obtain ⟨bodies, alike⟩ := relations.body.samePaths program'
          exact ⟨⟨relation', found', relations.parameters, bodies, alike⟩⟩

section

variable (partners : ∀ {name : String} {relation : Relation},
  program.find? name = some relation → Partner program' name relation)

/-- The same choices, with the choices inside every body rearranged. -/
def Path.carry : {goal : Goal} → Path program goal → Path program' goal
  | _, .succeed => .succeed
  | _, .always unfolded => .always unfolded.carry
  | _, .eq => .eq
  | _, .disjLeft onLeft => .disjLeft onLeft.carry
  | _, .disjRight onRight => .disjRight onRight.carry
  | _, .conj onFirst onSecond => .conj onFirst.carry onSecond.carry
  | _, .fresh inside => .fresh inside.carry
  | _, .suspend inside => .suspend inside.carry
  | _, .call _ found inside =>
    .call _ (partners found).found ((partners found).bodies inside.carry)
  | _, .times index => .times index

namespace Path

theorem alike_carry (path : Path program goal) :
    path.Alike (path.carry partners) := by
  induction path with
  | succeed => exact ⟨rfl, rfl, fun _ _ => rfl⟩
  | always unfolded onUnfolded =>
      exact ⟨onUnfolded.count, onUnfolded.calls, fun _ _ =>
        onUnfolded.equations _ _⟩
  | eq => exact ⟨rfl, rfl, fun _ _ => rfl⟩
  | disjLeft onLeft inside => exact inside.disjLeft _ _
  | disjRight onRight inside => exact inside.disjRight _ _
  | conj onFirst onSecond first second => exact first.conj second
  | fresh inside onInside => exact onInside.fresh _
  | suspend inside onInside =>
      exact ⟨onInside.count, onInside.calls, onInside.equations⟩
  | @call name arguments relation found inside onInside =>
      have rearranged := onInside.trans ((partners found).alike _)
      refine ⟨rearranged.count, congrArg (· + 1) rearranged.calls, ?_⟩
      intro scope supply
      rw [equations, carry, equations, rearranged.equations, Relation.scope,
        Relation.scope, (partners found).parameters]
  | times index => exact ⟨rfl, rfl, fun _ _ => rfl⟩

theorem carry_injective {path other : Path program goal}
    (same : path.carry partners = other.carry partners) : path = other := by
  induction path with
  | succeed =>
      cases other
      rfl
  | always unfolded onUnfolded =>
      cases other with
      | always unfolded' => rw [onUnfolded (Path.always.inj same)]
  | eq =>
      cases other
      rfl
  | disjLeft onLeft inside =>
      cases other with
      | disjLeft onLeft' => rw [inside (Path.disjLeft.inj same)]
      | disjRight onRight' => cases same
  | disjRight onRight inside =>
      cases other with
      | disjLeft onLeft' => cases same
      | disjRight onRight' => rw [inside (Path.disjRight.inj same)]
  | conj onFirst onSecond first second =>
      cases other with
      | conj onFirst' onSecond' =>
          obtain ⟨sameFirst, sameSecond⟩ := Path.conj.inj same
          rw [first sameFirst, second sameSecond]
  | fresh inside onInside =>
      cases other with
      | fresh inside' => rw [onInside (Path.fresh.inj same)]
  | suspend inside onInside =>
      cases other with
      | suspend inside' => rw [onInside (Path.suspend.inj same)]
  | call relation found inside onInside =>
      cases other with
      | call relation' found' inside' =>
          obtain rfl := Option.some.inj (found.symm.trans found')
          have bodies := eq_of_heq (Path.call.inj same).2
          rw [onInside ((partners found).bodies.injective bodies)]
  | times index =>
      cases other with
      | times index' => rw [Path.times.inj same]

/-- Every path of the other program is met. -/
theorem exists_carry
    (missing : ∀ name, program.find? name = none → program'.find? name = none)
    (calls : Nat) (path' : Path program' goal) (within : path'.calls ≤ calls) :
    ∃ path : Path program goal, path.carry partners = path' := by
  -- The path inside a body is rearranged before it is gone along, so it is no
  -- part of the path that is given.  But it makes fewer calls.
  induction calls using Nat.strongRecOn generalizing goal path' with
  | ind calls onFewer =>
  induction path' with
  | succeed => exact ⟨.succeed, rfl⟩
  | always unfolded onUnfolded =>
      obtain ⟨path, rfl⟩ := onUnfolded within
      exact ⟨.always path, rfl⟩
  | eq => exact ⟨.eq, rfl⟩
  | disjLeft onLeft inside =>
      obtain ⟨path, rfl⟩ := inside within
      exact ⟨.disjLeft path, rfl⟩
  | disjRight onRight inside =>
      obtain ⟨path, rfl⟩ := inside within
      exact ⟨.disjRight path, rfl⟩
  | conj onFirst onSecond first second =>
      rw [Path.calls] at within
      obtain ⟨path, rfl⟩ := first (by omega)
      obtain ⟨path', rfl⟩ := second (by omega)
      exact ⟨.conj path path', rfl⟩
  | fresh inside onInside =>
      obtain ⟨path, rfl⟩ := onInside within
      exact ⟨.fresh path, rfl⟩
  | suspend inside onInside =>
      obtain ⟨path, rfl⟩ := onInside within
      exact ⟨.suspend path, rfl⟩
  | @call name arguments relation' found' inside' _ =>
      cases found : program.find? name with
      | none =>
          rw [missing name found] at found'
          cases found'
      | some relation =>
          obtain rfl : (partners found).relation' = relation' :=
            Option.some.inj ((partners found).found.symm.trans found')
          have back :=
            (partners found).alike ((partners found).bodies.symm inside')
          rw [Equiv.apply_symm_apply] at back
          rw [Path.calls, ← back.calls] at within
          obtain ⟨path, same⟩ := onFewer _ within
            ((partners found).bodies.symm inside') (Nat.le_refl _)
          refine ⟨.call relation found path, ?_⟩
          rw [carry, same, Equiv.apply_symm_apply]
  | times index => exact ⟨.times index, rfl⟩

end Path

end

/-- Rewriting the relations keeps the ways in which a goal can hold. -/
theorem samePaths_program (reshaped : program.Reshaped program')
    (goal : Goal) : SamePaths program program' goal goal := by
  have partners {name : String} {relation : Relation}
      (found : program.find? name = some relation) :
      Partner program' name relation :=
    Classical.choice (nonempty_partner reshaped found)
  have missing : ∀ name, program.find? name = none →
      program'.find? name = none := by
    intro name absent
    have related := reshaped.find? name
    rw [absent] at related
    cases found' : program'.find? name with
    | none => rfl
    | some relation' =>
        rw [found'] at related
        cases related
  exact ⟨Equiv.ofBijective (Path.carry partners)
    ⟨fun _ _ same => Path.carry_injective partners same,
      fun path' => Path.exists_carry partners missing _ path' (Nat.le_refl _)⟩,
    Path.alike_carry partners⟩

/-! ### Answers -/

variable {scope : Scope} {s : State}

/-- Along a path that is alike there is a derivation of the same state. -/
theorem Path.Alike.exists_derivation {s' : State}
    {derivation : Derivation program goal scope s s'}
    {path' : Path program' goal'} (alike : derivation.path.Alike path') :
    ∃ derivation' : Derivation program' goal' scope s s',
      derivation'.path = path' := by
  have unified := derivation.unifyAll_path
  rw [alike.equations] at unified
  have supplied := derivation.supplies_path
  rw [alike.count] at supplied
  have counter := derivation.counter_path
  rw [alike.count] at counter
  have found := path'.exists_derivation unified supplied
  rwa [← counter] at found

/-- The derivations of two goals with the same paths are in bijection, and
partners lead to the same state. -/
theorem exists_pairing
    (same : SamePaths program program' goal goal') :
    ∃ pairing : (Σ s', Derivation program goal scope s s') ≃
        Σ s', Derivation program' goal' scope s s',
      ∀ derivation, (pairing derivation).1 = derivation.1 := by
  obtain ⟨paths, alike⟩ := same
  choose partner samePath using fun derivation :
      (Σ s', Derivation program goal scope s s') =>
    (alike derivation.2.path).exists_derivation
  refine ⟨Equiv.ofBijective (fun derivation => ⟨_, partner derivation⟩) ?_,
    fun _ => rfl⟩
  constructor
  · intro derivation other same
    have samePaths : paths derivation.2.path = paths other.2.path := by
      rw [← samePath, ← samePath]
      exact congrArg (fun derivation => derivation.2.path) same
    exact derivation.2.path_injective other.2 (paths.injective samePaths)
  · rintro ⟨s', derivation'⟩
    have back := alike (paths.symm derivation'.path)
    rw [paths.apply_symm_apply] at back
    obtain ⟨derivation, along⟩ := back.symm.exists_derivation
    refine ⟨⟨s', derivation⟩, (partner _).path_injective derivation' ?_⟩
    rw [samePath, along, paths.apply_symm_apply]

/-- How often the search that a goal describes shows a state equal to the given
one. -/
noncomputable def answers (program : Program) (goal : Goal) (scope : Scope)
    (place : Place) (s found : State) : ℕ∞ :=
  (goal.searchAt program program.allowance scope place (.root s)).count
    program.described fun b => b.state.eqv found = true

/-- A search shows a state as often as there are derivations of it. -/
theorem answers_eq_card (plainProgram : program.isPlain = true)
    (plain : goal.isPlain = true) (place : Place) (found : State) :
    goal.answers program scope place s found =
      ENat.card { derivation : Σ s', Derivation program goal scope s s' //
        derivation.1.eqv found = true } := by
  obtain ⟨position, reached⟩ : ∃ position :
        (Σ s', Derivation program goal scope s s') ≃
          goal.elements program scope place s, _ :=
    exists_positions plainProgram plain place
  have image : { n | ∃ b,
        (goal.searchAt program program.allowance scope place (.root s)).sight
          program.described n = some (.yield b) ∧
        b.state.eqv found = true } =
      (fun derivation => (position derivation : Nat)) ''
        { derivation | derivation.1.eqv found = true } := by
    ext n
    constructor
    · rintro ⟨b, shown, met⟩
      obtain ⟨derivation, there⟩ := position.surjective ⟨n, b, shown⟩
      have landed : ↑(position derivation) = n := congrArg Subtype.val there
      have similar := reached derivation b (landed ▸ shown)
      exact ⟨derivation, State.eqv_iff_similar.2
        (similar.trans (State.eqv_iff_similar.1 met)), landed⟩
    · rintro ⟨derivation, met, rfl⟩
      obtain ⟨b, shown⟩ := (position derivation).2
      have similar := reached derivation b shown
      exact ⟨b, shown, State.eqv_iff_similar.2
        (similar.symm.trans (State.eqv_iff_similar.1 met))⟩
  rw [answers, Stream.count, image]
  exact (Subtype.val_injective.comp position.injective).encard_image _

/-- A search that runs shows a state as often as the search that its goal
describes, if the variables last. -/
theorem count_applyTo {place : Place}
    (calm : ∀ n, (goal.applyTo program scope place s).Calm program.rules n)
    (found : State) :
    (goal.applyTo program scope place s).value.count program.rules
        (fun b => b.state.eqv found = true) =
      goal.answers program scope place s found := by
  simp only [answers, Stream.count, sight_applyTo (calm _)]

/-- Streams that are put together in other ways show every element equally
often, and so do searches with continuations of any kind that have been
rewritten.  Rewriting goals and relations keeps how often each state is found.
The searches that run find each state that often if the variables last.

Values that differ from themselves are left out of the last statement only: a
state that holds such a value is equal to no state of another search. -/
theorem reshaped_answers :
    (∀ {ε ι κ α : Type} (rules : Rules ε ι κ α) (s t r : Stream ι κ α)
        (f g : κ) (test : α → Prop),
      (s.merge t).count rules test = (t.merge s).count rules test ∧
      ((s.merge t).merge r).count rules test =
        (s.merge (t.merge r)).count rules test ∧
      (∀ h, rules.IsConj h f g →
        ((s.bind rules f).value.bind rules g).value.count rules test =
          (s.bind rules h).value.count rules test) ∧
      ((s.merge t).bind rules g).value.count rules test =
        ((s.bind rules g).value.merge (t.bind rules g).value).count rules test ∧
      (∀ h, rules.IsDisj h f g →
        (s.bind rules h).value.count rules test =
          ((s.bind rules f).value.merge (s.bind rules g).value).count rules
            test) ∧
      ∀ suspension : Suspension ι κ α, (suspension.force rules).value = s →
        (Stream.delay suspension).count rules test = s.count rules test) ∧
    (∀ {ε ι κ α : Type} (rules : Rules ε ι κ α) (f f' : κ),
      rules.Reshaped f f' → ∀ (a : α) (test : α → Prop),
        (rules.apply f a).value.count rules test =
          (rules.apply f' a).value.count rules test) ∧
    ∀ (program program' : Program) (goal goal' : Goal) (scope : Scope)
      (place place' : Place) (s found : State), program.isPlain = true →
      goal.isPlain = true → program.Reshaped program' → goal.Reshaped goal' →
      goal.answers program scope place s found =
        goal'.answers program' scope place' s found ∧
      ((∀ n, (goal.applyTo program scope place s).Calm program.rules n) →
        (∀ n, (goal'.applyTo program' scope place' s).Calm program'.rules n) →
          (goal.applyTo program scope place s).value.count program.rules
              (fun b => b.state.eqv found = true) =
            (goal'.applyTo program' scope place' s).value.count program'.rules
              fun b => b.state.eqv found = true) := by
  refine ⟨?_, ?_, ?_⟩
  · intro ε ι κ α rules s t r f g test
    refine ⟨Stream.count_eq_of_same (s.same_merge_comm t) test,
      Stream.count_eq_of_same (s.same_merge_assoc t r) test, ?_,
      Stream.count_eq_of_same (s.same_merge_bind t) test, ?_, ?_⟩
    · intro h composed
      exact Stream.count_eq_of_same (s.same_bind_assoc composed) test
    · intro h merged
      exact Stream.count_eq_of_same (s.same_bind_merge merged) test
    · rintro suspension rfl
      exact Stream.count_eq_of_same (Stream.bag_delay suspension) test
  · intro ε ι κ α rules f f' reshaped a test
    exact Stream.count_eq_of_same (reshaped.same a) test
  · intro program program' goal goal' scope place place' s found plainProgram
      plain programs goals
    have plainProgram' : program'.isPlain = true :=
      (programs.every Expr.isPlain).symm.trans plainProgram
    have plain' : goal'.isPlain = true :=
      (goals.every Expr.isPlain).symm.trans plain
    have same : SamePaths program program' goal goal' :=
      (samePaths_program programs goal).trans (goals.samePaths program')
    obtain ⟨pairing, sameState⟩ := @exists_pairing _ _ _ _ scope s same
    have answered : goal.answers program scope place s found =
        goal'.answers program' scope place' s found := by
      rw [answers_eq_card plainProgram plain,
        answers_eq_card plainProgram' plain']
      refine ENat.card_congr (pairing.subtypeEquiv fun derivation => ?_)
      rw [sameState]
    refine ⟨answered, fun calm calm' => ?_⟩
    rw [count_applyTo calm, count_applyTo calm', answered]

/-- A conjunction is distributed over a disjunction, one side of the result is
put off, and the state in which the equation holds is found as often as before.
A conjunction of plans is put in other brackets. -/
theorem reshaped_answers_distributed :
    (∃ (x : Var) (goal goal' : Goal) (found : State),
      goal = .conj (.times 2) (.disj (.eq (.var x) (.term .nil)) .succeed) ∧
      goal' = .disj (.suspend (.conj (.times 2) .succeed))
        (.conj (.times 2) (.eq (.var x) (.term .nil))) ∧
      (∃ b, (goal.applyTo [] [] (.root 0) ⟨.empty, 1⟩).value.sight
        (Program.rules []) 0 = some (.yield b) ∧ b.state = found) ∧
      (goal.applyTo [] [] (.root 0) ⟨.empty, 1⟩).value.count
          (Program.rules []) (fun b => b.state.eqv found = true) =
        (goal'.applyTo [] [] (.root 0) ⟨.empty, 1⟩).value.count
          (Program.rules []) fun b => b.state.eqv found = true) ∧
    ∀ b, ((Plan.conj (.conj (.times 2) (.times 3)) .succeed).search []
        b).value.count (Program.described []) (fun _ => True) =
      ((Plan.conj (.times 2) (.conj (.times 3) .succeed)).search []
        b).value.count (Program.described []) fun _ => True := by
  obtain ⟨_, continuations, goals⟩ := reshaped_answers
  constructor
  · let x : Var := ⟨0, by decide⟩
    let holds : Goal := .eq (.var x) (.term .nil)
    let goal : Goal := .conj (.times 2) (.disj holds .succeed)
    let goal' : Goal := .disj (.suspend (.conj (.times 2) .succeed))
      (.conj (.times 2) holds)
    have reshaped : goal.Reshaped goal' :=
      .trans (.conjDisj _ _ _)
        (.trans (.disjComm _ _) (.disj (.suspend _) (.refl _)))
    have shown : (goal.applyTo [] [] (.root 0) ⟨.empty, 1⟩).value.sight
        (Program.rules []) 0 =
          some (.yield ⟨⟨Substitution.empty.prepend ⟨x, .nil⟩, 1⟩,
            [0, 0]⟩) := by
      cbv
    -- Four elements are found, and `goal'` is put off once before them.
    have calm : ∀ n, (goal.applyTo [] [] (.root 0) ⟨.empty, 1⟩).Calm
        (Program.rules []) n :=
      Traced.calm_of_ended (n := 4) (by cbv) (by cbv)
    have calm' : ∀ n, (goal'.applyTo [] [] (.root 0) ⟨.empty, 1⟩).Calm
        (Program.rules []) n :=
      Traced.calm_of_ended (n := 5) (by cbv) (by cbv)
    have answered := goals [] [] goal goal' [] (.root 0) (.root 0) ⟨.empty, 1⟩
      ⟨Substitution.empty.prepend ⟨x, .nil⟩, 1⟩ rfl rfl .nil reshaped
    exact ⟨x, goal, goal', _, rfl, rfl, ⟨_, shown, rfl⟩, answered.2 calm calm'⟩
  · intro b
    have isConj : ∀ first second : Plan,
        (Program.described []).IsConj (.conj first second) first second := by
      intro first second c
      change ((Plan.conj first second).search [] c).value = _
      rw [Plan.search_conj]
      rfl
    exact continuations (Program.described []) _ _ (.conjAssoc (isConj _ _)
      (isConj _ _) (isConj _ _) (isConj _ _)) b _

end Goal

end Relational
