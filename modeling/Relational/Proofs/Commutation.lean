/-
Module: Relational.Proofs.Commutation
Purpose: The two parts of a conjunction can be searched in either order, and
  the answers are the same.
Main exports: Var.exchange, Goal.Path.swap, Goal.Derivation.exists_swapped,
  Goal.elements, Goal.conj_comm_answers
-/
import Relational.Proofs.Paths

namespace Relational

/-!
The search of a conjunction goes through its first part and then, from every
branch, through its second part.  In the other order it introduces the same
number of variables and meets the same equations, but the variables of the two
parts have exchanged their numbers, and the equations come in another order.
Neither is seen in an answer.  Which branches come to nothing early and where
the search is suspended depends on the order as well, so there is no relation
between the positions of the two searches other than through derivations.
-/

/-! ### Exchanging two blocks of variables -/

namespace Var

/-- Exchanges a block of identifiers with the block that follows it. -/
def exchangeId (start left right id : Nat) : Nat :=
  if id < start then id
  else if id < start + left then id + right
  else if id < start + left + right then id - left
  else id

theorem exchangeId_exchangeId (start left right id : Nat) :
    exchangeId start right left (exchangeId start left right id) = id := by
  unfold exchangeId
  split_ifs <;> omega

theorem exchangeId_lt {start left right bound : Nat}
    (within : start + left + right ≤ bound) {id : Nat} (inRange : id < bound) :
    exchangeId start left right id < bound := by
  unfold exchangeId
  split_ifs <;> omega

/-- The renaming that exchanges two neighbouring blocks of variables. -/
def exchange (start left right : Nat)
    (within : start + left + right ≤ capacity) : Var ≃ Var where
  toFun x := ⟨exchangeId start left right x.id, exchangeId_lt within x.inRange⟩
  invFun x := ⟨exchangeId start right left x.id,
    exchangeId_lt (by omega) x.inRange⟩
  left_inv x := Var.ext (exchangeId_exchangeId ..)
  right_inv x := Var.ext (exchangeId_exchangeId ..)

/-- Where there are so many variables left, two blocks of those to come can be
exchanged. -/
theorem exists_exchange {s : State} {left right : Nat}
    (supplied : s.Supplies (left + right)) :
    ∃ ρ : Var ≃ Var, FixesBelow s.counter ρ ∧
      (∀ index < left, ρ (upcoming s.counter index) =
        upcoming (s.counter + right) index) ∧
      ∀ index < right, ρ (upcoming (s.counter + left) index) =
        upcoming s.counter index := by
  rcases supplied with none | within
  · refine ⟨Equiv.refl Var, fun _ _ => rfl, ?_, ?_⟩
    all_goals
      intro index less
      omega
  · rw [← Nat.add_assoc] at within
    refine ⟨exchange s.counter left right within, ?_, ?_, ?_⟩
    · intro x below
      exact Var.ext (if_pos below)
    · intro index less
      have inRange : s.counter + index < capacity := by omega
      rw [upcoming_eq (x := ⟨s.counter + index, inRange⟩) rfl]
      refine (upcoming_eq ?_).symm
      simp only [exchange, Equiv.coe_fn_mk, exchangeId]
      split_ifs <;> omega
    · intro index less
      have inRange : s.counter + left + index < capacity := by omega
      rw [upcoming_eq (x := ⟨s.counter + left + index, inRange⟩) rfl]
      refine (upcoming_eq ?_).symm
      simp only [exchange, Equiv.coe_fn_mk, exchangeId]
      split_ifs <;> omega

end Var

/-! ### Renamed equations -/

namespace Valuation

theorem solvesEach_rename_iff {θ : Valuation} {ρ : Var → Var}
    {equations : List (Term × Term)} :
    θ.SolvesEach (equations.map (Prod.map (.rename ρ) (.rename ρ))) ↔
      SolvesEach (θ ∘ ρ) equations := by
  simp only [SolvesEach, List.forall_mem_map, Solves, Prod.map_fst,
    Prod.map_snd, Term.subst_rename]

/-- A renaming of variables that a substitution does not mention does not
change who satisfies it. -/
theorem satisfies_rename_iff {θ : Valuation} {bound : Nat} {ρ : Var → Var}
    (fixes : Var.FixesBelow bound ρ) {s : Substitution}
    (below : s.isBelow bound = true) :
    Satisfies (θ ∘ ρ) s ↔ θ.Satisfies s := by
  have agree : θ.AgreesBelow bound (θ ∘ ρ) := fun x less =>
    congrArg θ (fixes x less)
  exact ⟨fun satisfied => satisfied.of_agreesBelow agree.symm below,
    fun satisfied => satisfied.of_agreesBelow agree below⟩

end Valuation

/-! ### Paths through a conjunction in the other order -/

namespace Goal

variable {program : Program} {first second : Goal} {scope : Scope} {s : State}

/-- The same choices, made in the other order. -/
def Path.swap : Path program (.conj first second) →
    Path program (.conj second first)
  | .conj onFirst onSecond => .conj onSecond onFirst

namespace Path

@[simp] theorem swap_swap (path : Path program (.conj first second)) :
    path.swap.swap = path := by
  cases path
  rfl

theorem count_swap (path : Path program (.conj first second)) :
    path.swap.count = path.count := by
  cases path with
  | conj onFirst onSecond => exact Nat.add_comm _ _

/-- In the other order a path meets the same equations, up to a renaming of the
variables that it introduces. -/
theorem exists_solvesEach_swap (programBelow : program.isBelow s.counter = true)
    (firstBelow : first.isBelow s.counter = true)
    (secondBelow : second.isBelow s.counter = true)
    (scopeBelow : scope.isBelow s.counter = true)
    (path : Path program (.conj first second))
    (supplied : s.Supplies path.count) :
    ∃ ρ : Var ≃ Var, Var.FixesBelow s.counter ρ ∧ ∀ θ : Valuation,
      θ.SolvesEach (path.swap.equations scope (Var.upcoming s.counter)) ↔
        Valuation.SolvesEach (θ ∘ ρ)
          (path.equations scope (Var.upcoming s.counter)) := by
  cases path with
  | conj onFirst onSecond =>
      obtain ⟨ρ, fixes, toFirst, toSecond⟩ := Var.exists_exchange supplied
      refine ⟨ρ, fixes, fun θ => ?_⟩
      -- Each part meets its own equations with the variables that it receives
      -- in the other order.
      have renamedFirst : (onFirst.equations scope
            (Var.upcoming s.counter)).map (Prod.map (.rename ρ) (.rename ρ)) =
          onFirst.equations scope
            (Var.upcoming (s.counter + onSecond.count)) := by
        rw [equations_rename fixes programBelow onFirst firstBelow,
          Scope.rename_of_isBelow fixes scopeBelow]
        exact onFirst.equations_congr scope toFirst
      have renamedSecond : (onSecond.equations scope
            (Var.upcoming (s.counter + onFirst.count))).map
              (Prod.map (.rename ρ) (.rename ρ)) =
          onSecond.equations scope (Var.upcoming s.counter) := by
        rw [equations_rename fixes programBelow onSecond secondBelow,
          Scope.rename_of_isBelow fixes scopeBelow]
        exact onSecond.equations_congr scope toSecond
      rw [swap, equations, equations, Var.upcoming_add, Var.upcoming_add,
        ← renamedFirst, ← renamedSecond, Valuation.solvesEach_append_iff,
        Valuation.solvesEach_append_iff, Valuation.solvesEach_rename_iff,
        Valuation.solvesEach_rename_iff]
      exact And.comm

end Path

/-- Every derivation of a conjunction has a counterpart in the other order, and
the answers of the two are the same. -/
theorem Derivation.exists_swapped (built : s.substitution.Built)
    (stateBelow : s.substitution.isBelow s.counter = true)
    (programBelow : program.isBelow s.counter = true)
    (firstBelow : first.isBelow s.counter = true)
    (secondBelow : second.isBelow s.counter = true)
    (scopeBelow : scope.isBelow s.counter = true) {s' : State}
    (derivation : Derivation program (.conj first second) scope s s') :
    ∃ (t' : State) (swapped :
        Derivation program (.conj second first) scope s t'),
      swapped.path = derivation.path.swap ∧
      ∀ term : Term, term.isBelow s.counter = true →
        (s'.reify term).eqv (t'.reify term) = true := by
  obtain ⟨ρ, fixes, renamed⟩ := derivation.path.exists_solvesEach_swap
    programBelow firstBelow secondBelow scopeBelow derivation.supplies_path
  have unified := derivation.unifyAll_path
  have wellFormed := built.wellFormed.of_unifyAll unified
  -- What solves the equations in one order solves them in the other order when
  -- it is renamed.
  have solvable : ∃ θ : Valuation, θ.Satisfies s.substitution ∧ θ.SolvesEach
      (derivation.path.swap.equations scope (Var.upcoming s.counter)) := by
    obtain ⟨θ, satisfied, solves⟩ :=
      (Substitution.exists_unifyAll_iff built.wellFormed _).1 ⟨_, unified⟩
    have back : (θ ∘ ρ.symm) ∘ ρ = θ := by
      funext x
      simp
    refine ⟨θ ∘ ρ.symm, ?_, ?_⟩
    · rwa [← Valuation.satisfies_rename_iff fixes stateBelow, back]
    · rwa [renamed, back]
  obtain ⟨substitution, unified'⟩ :=
    (Substitution.exists_unifyAll_iff built.wellFormed _).2 solvable
  have wellFormed' := built.wellFormed.of_unifyAll unified'
  have supplied : s.Supplies derivation.path.swap.count := by
    rw [Path.count_swap]
    exact derivation.supplies_path
  obtain ⟨swapped, samePath⟩ :=
    derivation.path.swap.exists_derivation unified' supplied
  refine ⟨_, swapped, samePath, fun term below => ?_⟩
  have renames : Substitution.Renames ρ s'.substitution substitution := by
    intro θ
    rw [Substitution.satisfies_of_unifyAll unified',
      Substitution.satisfies_of_unifyAll unified, renamed θ,
      Valuation.satisfies_rename_iff fixes stateBelow]
  have answers := renames.reify wellFormed wellFormed' term
  rwa [Term.rename_of_isBelow fixes below] at answers

/-- The derivations of a conjunction in one order and those in the other order
are in bijection, and partners have the same answers. -/
theorem exists_swapping (built : s.substitution.Built)
    (stateBelow : s.substitution.isBelow s.counter = true)
    (programBelow : program.isBelow s.counter = true)
    (firstBelow : first.isBelow s.counter = true)
    (secondBelow : second.isBelow s.counter = true)
    (scopeBelow : scope.isBelow s.counter = true) :
    ∃ swapping :
        (Σ s', Derivation program (.conj first second) scope s s') ≃
          Σ s', Derivation program (.conj second first) scope s s',
      ∀ (derivation :
          Σ s', Derivation program (.conj first second) scope s s')
        (term : Term), term.isBelow s.counter = true →
          (derivation.1.reify term).eqv
            ((swapping derivation).1.reify term) = true := by
  choose partner swapped samePath answers using fun derivation :
      (Σ s', Derivation program (.conj first second) scope s s') =>
    derivation.2.exists_swapped built stateBelow programBelow firstBelow
      secondBelow scopeBelow
  refine ⟨Equiv.ofBijective (fun derivation => ⟨_, swapped derivation⟩) ?_,
    answers⟩
  constructor
  · intro derivation other same
    have paths : derivation.2.path.swap = other.2.path.swap := by
      rw [← samePath, ← samePath]
      exact congrArg (fun derivation => derivation.2.path) same
    have samePaths := congrArg Path.swap paths
    rw [Path.swap_swap, Path.swap_swap] at samePaths
    exact derivation.2.path_injective other.2 samePaths
  · rintro ⟨t', derivation⟩
    obtain ⟨s', original, back, _⟩ := derivation.exists_swapped built stateBelow
      programBelow secondBelow firstBelow scopeBelow
    refine ⟨⟨s', original⟩, (swapped _).path_injective derivation ?_⟩
    rw [samePath, back, Path.swap_swap]

/-! ### Positions of the two searches -/

/-- The positions at which the search that a goal describes shows an
element. -/
def elements (program : Program) (goal : Goal) (scope : Scope) (place : Place)
    (s : State) : Set Nat :=
  { n | ∃ b, (goal.searchAt program program.allowance scope place
    (.root s)).sight program.described n = some (.yield b) }

/-- As long as the variables last, the elements of the search that runs stand
at these positions. -/
theorem mem_elements_iff {goal : Goal} {place : Place} {n : Nat}
    (calm : (goal.applyTo program scope place s).Calm program.rules n) :
    n ∈ goal.elements program scope place s ↔
      ∃ b, (goal.applyTo program scope place s).value.sight program.rules n =
        some (.yield b) := by
  rw [sight_applyTo calm]
  rfl

/-- The elements of a search are in bijection with the derivations of its
goal. -/
theorem exists_positions (plainProgram : program.isPlain = true) {goal : Goal}
    (plain : goal.isPlain = true) (place : Place) :
    ∃ position : (Σ s', Derivation program goal scope s s') ≃
        goal.elements program scope place s,
      ∀ derivation b,
        (goal.searchAt program program.allowance scope place (.root s)).sight
          program.described (position derivation) = some (.yield b) →
        derivation.1.Similar b.state := by
  have scopes := Scope.Similar.refl scope
  have states : s.Similar (Branch.root s).state := .refl s
  have landed := fun derivation : (Σ s', Derivation program goal scope s s') =>
    derivation.2.sight_landing plainProgram plain scopes states
      program.allowance place
  refine ⟨Equiv.ofBijective (fun derivation => ⟨_, _, (landed derivation).1⟩)
    ⟨?_, ?_⟩, ?_⟩
  · intro derivation other same
    exact derivation.2.landing_injective plainProgram other.2 plain scopes
      states program.allowance place (congrArg Subtype.val same)
  · rintro ⟨n, b, shown⟩
    obtain ⟨s', derivation, reached⟩ := explained plainProgram _ _ _ goal plain
      scopes states shown (Nat.le_refl _) (Nat.le_refl _)
    exact ⟨⟨s', derivation⟩, Subtype.ext (congrArg Prod.fst reached)⟩
  · intro derivation b shown
    obtain rfl := Sight.yield.inj
      (Option.some.inj ((landed derivation).1.symm.trans shown))
    exact (landed derivation).2

/-- The two parts of a conjunction can be searched in either order.  The
elements of the two searches are in bijection, and elements that belong together
give equal answers to every query about the variables that were there before.
The searches that run show these elements, and no others, as long as the
variables last. -/
theorem conj_comm_answers (plainProgram : program.isPlain = true)
    (firstPlain : first.isPlain = true) (secondPlain : second.isPlain = true)
    (built : s.substitution.Built)
    (stateBelow : s.substitution.isBelow s.counter = true)
    (programBelow : program.isBelow s.counter = true)
    (firstBelow : first.isBelow s.counter = true)
    (secondBelow : second.isBelow s.counter = true)
    (scopeBelow : scope.isBelow s.counter = true) (place place' : Place) :
    ∃ pairing : (Goal.conj first second).elements program scope place s ≃
        (Goal.conj second first).elements program scope place' s,
      (∀ n, ((Goal.conj first second).applyTo program scope place s).Calm
          program.rules n →
        (n ∈ (Goal.conj first second).elements program scope place s ↔
          ∃ b, ((Goal.conj first second).applyTo program scope place
            s).value.sight program.rules n = some (.yield b))) ∧
      (∀ n, ((Goal.conj second first).applyTo program scope place' s).Calm
          program.rules n →
        (n ∈ (Goal.conj second first).elements program scope place' s ↔
          ∃ b, ((Goal.conj second first).applyTo program scope place'
            s).value.sight program.rules n = some (.yield b))) ∧
      ∀ (n : (Goal.conj first second).elements program scope place s) b b'
        term,
        ((Goal.conj first second).applyTo program scope place s).Calm
          program.rules n →
        ((Goal.conj second first).applyTo program scope place' s).Calm
          program.rules (pairing n) →
        ((Goal.conj first second).applyTo program scope place s).value.sight
          program.rules n = some (.yield b) →
        ((Goal.conj second first).applyTo program scope place' s).value.sight
          program.rules (pairing n) = some (.yield b') →
        term.isBelow s.counter = true →
        (b.state.reify term).eqv (b'.state.reify term) = true := by
  have plain : (Goal.conj first second).isPlain = true :=
    Bool.and_eq_true_iff.2 ⟨firstPlain, secondPlain⟩
  have plain' : (Goal.conj second first).isPlain = true :=
    Bool.and_eq_true_iff.2 ⟨secondPlain, firstPlain⟩
  obtain ⟨position, reached⟩ := exists_positions plainProgram plain place
  obtain ⟨position', reached'⟩ := exists_positions plainProgram plain' place'
  obtain ⟨swapping, answers⟩ := exists_swapping built stateBelow programBelow
    firstBelow secondBelow scopeBelow
  refine ⟨position.symm.trans (swapping.trans position'),
    fun _ calm => mem_elements_iff calm,
    fun _ calm => mem_elements_iff calm, ?_⟩
  intro n b b' term calm calm' shown shown' below
  obtain ⟨derivation, rfl⟩ := position.surjective n
  simp only [Equiv.trans_apply, Equiv.symm_apply_apply] at calm' shown'
  rw [sight_applyTo calm] at shown
  rw [sight_applyTo calm'] at shown'
  have original := (reached derivation b shown).substitution.reify term
  have partner := (reached' _ b' shown').substitution.reify term
  exact Term.eqv_trans (Term.eqv_comm original)
    (Term.eqv_trans (answers derivation term below) partner)

/-- One part has two answers and the other one holds twice.  The answers come
in another order when the parts are exchanged. -/
theorem conj_comm_answers_twice :
    ∃ (x : Var) (first second : Goal),
      (∃ b, ((Goal.conj first second).applyTo [] [] (.root 0)
        ⟨.empty, 1⟩).value.sight (Program.rules []) 0 = some (.yield b)) ∧
      ∃ pairing :
        (Goal.conj first second).elements [] [] (.root 0) ⟨.empty, 1⟩ ≃
          (Goal.conj second first).elements [] [] (.root 0) ⟨.empty, 1⟩,
      ∀ (n : (Goal.conj first second).elements [] [] (.root 0) ⟨.empty, 1⟩)
        b b',
        ((Goal.conj first second).applyTo [] [] (.root 0)
          ⟨.empty, 1⟩).value.sight (Program.rules []) n = some (.yield b) →
        ((Goal.conj second first).applyTo [] [] (.root 0)
          ⟨.empty, 1⟩).value.sight (Program.rules []) (pairing n) =
            some (.yield b') →
        (b.state.reify (.var x)).eqv (b'.state.reify (.var x)) = true := by
  let x : Var := ⟨0, by decide⟩
  let first : Goal := .fresh "y" (.disj (.eq (.var x) (.term .nil)) .succeed)
  let second : Goal := .fresh "z" (.times 2)
  have calm : ∀ n, ((Goal.conj first second).applyTo [] [] (.root 0)
      ⟨.empty, 1⟩).Calm (Program.rules []) n :=
    Traced.calm_of_finite (by cbv) (Option.isNone_iff_eq_none.2 (by cbv))
  have calm' : ∀ n, ((Goal.conj second first).applyTo [] [] (.root 0)
      ⟨.empty, 1⟩).Calm (Program.rules []) n :=
    Traced.calm_of_finite (by cbv) (Option.isNone_iff_eq_none.2 (by cbv))
  have found : ((Goal.conj first second).applyTo [] [] (.root 0)
      ⟨.empty, 1⟩).value.sight (Program.rules []) 0 =
        some (.yield ⟨⟨Substitution.empty.prepend ⟨x, .nil⟩, 3⟩, [0, 0]⟩) := by
    cbv
  obtain ⟨pairing, _, _, answers⟩ := @conj_comm_answers [] first second []
    ⟨.empty, 1⟩ rfl rfl rfl .empty rfl rfl rfl rfl rfl (.root 0) (.root 0)
  exact ⟨x, first, second, ⟨_, found⟩, pairing, fun n b b' shown shown' =>
    answers n b b' (.var x) (calm _) (calm' _) shown shown' rfl⟩

end Goal

end Relational
