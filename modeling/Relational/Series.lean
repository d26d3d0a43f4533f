/-
Module: Relational.Series
Purpose: Descriptions of streams of whole numbers.
Main exports: Series, Series.eval, Series.rules
-/
import Relational.Stream.Consume

namespace Relational

/-!
A series describes a stream of whole numbers that may depend on one number, called the current
number: zero at first, and the element at hand inside a continuation.  Series exercise every
operation on streams, suspensions and infinite streams included, without any search.
-/

/-- The number `slope * x + offset`, where `x` is the current number. -/
structure Line where
  slope : Int
  offset : Int
deriving DecidableEq, Repr

/-- The number of a line at the current number. -/
def Line.at (line : Line) (x : Int) : Int := line.slope * x + line.offset

/-- A description of a stream of whole numbers. -/
inductive Series where
  | empty
  | single (item : Line)
  | list (items : List Line)
  /-- The numbers from `start` to just below `stop`. -/
  | range (start stop : Line)
  | cons (item : Line) (rest : Series)
  | delay (inner : Series)
  /-- A suspension of one number followed by the same suspension. -/
  | constant (item : Line)
  /-- A suspension of one number followed by the suspension that counts on from the next. -/
  | counting (start : Line)
  /-- A suspension of itself. -/
  | never
  | merge (left right : Series)
  /-- The body is evaluated with each element as the current number. -/
  | bind (source body : Series)
  | map (source : Series) (image : Line)
  | force (inner : Series)
  /-- The first series if the current number is below the bound, otherwise the second. -/
  | ifBelow (bound : Int) (below other : Series)
  /-- The first series if the current number leaves the residue, otherwise the second. -/
  | ifResidue (modulus residue : Int) (same other : Series)
deriving DecidableEq, Repr

/-- What a suspension of a series has to do. -/
inductive Series.Task where
  | resume (series : Series) (x : Int)
  | constant (item : Int)
  | counting (start : Int)
  | never
deriving DecidableEq, Repr

/-- A stream of whole numbers. -/
abbrev NumberStream := Stream Series.Task Series Int

namespace Series

/-- More suspensions than are ever forced in a row. -/
def patience : Nat := 0x4000000000000000

/-- The stream of a series at the current number, given how to force a stream. -/
def evalWith (forceAll : NumberStream → NumberStream) (x : Int) : Series → NumberStream
  | .empty => .nil
  | .single item => .singleton (item.at x)
  | .list items => .ofList (items.map (·.at x))
  | .range start stop =>
    .ofList ((List.range (stop.at x - start.at x).toNat).map fun (n : Nat) => start.at x + n)
  | .cons item rest => .cons (item.at x) (rest.evalWith forceAll x)
  | .delay inner => .delay (.task (.resume inner x))
  | .constant item => .delay (.task (.constant (item.at x)))
  | .counting start => .delay (.task (.counting (start.at x)))
  | .never => .delay (.task .never)
  | .merge left right => (left.evalWith forceAll x).merge (right.evalWith forceAll x)
  | .bind source body =>
    ((source.evalWith forceAll x).bindWith
      (fun y => (Traced.pure (body.evalWith forceAll y) : Traced Empty _)) body).value
  | .map source image => (source.evalWith forceAll x).map image.at
  | .force inner => forceAll (inner.evalWith forceAll x)
  | .ifBelow bound below other =>
    if x < bound then below.evalWith forceAll x else other.evalWith forceAll x
  | .ifResidue modulus residue same other =>
    if x % modulus = residue then same.evalWith forceAll x else other.evalWith forceAll x

/-- What the tasks of a series do, given how series are evaluated.  A continuation is a series to
be evaluated at the element. -/
def rulesWith (eval : Series → Int → NumberStream) : Rules Empty Task Series Int where
  run
    | .resume series x => .pure (eval series x)
    | .constant item => .pure (.cons item (.delay (.task (.constant item))))
    | .counting start => .pure (.cons start (.delay (.task (.counting (start + 1)))))
    | .never => .pure (.delay (.task .never))
  apply body x := .pure (eval body x)
  isFatal event := nomatch event

/-- How deep demands to force are nested in a series. -/
def forceDepth : Series → Nat
  | .cons _ rest => rest.forceDepth
  | .delay inner => inner.forceDepth
  | .merge left right => max left.forceDepth right.forceDepth
  | .bind source body => max source.forceDepth body.forceDepth
  | .map source _ => source.forceDepth
  | .force inner => inner.forceDepth + 1
  | .ifBelow _ below other => max below.forceDepth other.forceDepth
  | .ifResidue _ _ same other => max same.forceDepth other.forceDepth
  | _ => 0

/-- Evaluates a series in which demands to force are nested at most `depth` deep: what a demand
forces comes from inside it and holds fewer demands. -/
def evalAt : Nat → Series → Int → NumberStream
  | 0 => fun series x => series.evalWith id x
  | depth + 1 => fun series x =>
    series.evalWith (fun s => (s.advance (rulesWith (evalAt depth)) patience).value.stream) x

/-- The stream of a series at the current number. -/
def eval (series : Series) (x : Int) : NumberStream :=
  evalAt series.forceDepth series x

/-- What the tasks of a series do. -/
def rules : Rules Empty Task Series Int :=
  rulesWith eval

/-- Appends a number to the text written so far. -/
def writeNumber (written : String) (x : Int) : String :=
  written ++ toString x

end Series

end Relational
