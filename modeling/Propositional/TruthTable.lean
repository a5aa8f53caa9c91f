import Propositional.Formula.Evaluation
import Propositional.Formula.Symbols

namespace Propositional

/-- A question put to all completions of some fixed values: is the query true wherever the base is?
    The symbols are enumerated in the order of the list, which may repeat some, omit some, or hold
    some that occur in neither formula. -/
structure TruthTable where
  base : Formula
  query : Formula
  symbols : List String
  fixed : Assignment

namespace TruthTable

/-- The table over the symbols of both formulas, those of the base first. -/
def ofFormulas (base query : Formula) (fixed : Assignment) : TruthTable :=
  ⟨base, query, query.collectSymbols base.symbols, fixed⟩

/-- What a walk over some completions found: the values of the query where the base was true, in
    the order visited, and whether the query was true in all of these. A walk ends at the first
    value that is false and at the first error. -/
structure Scan where
  held : List Bool
  result : Except EvalError Bool

namespace Scan

/-- Walks on unless the first walk has ended already. -/
def andThen (first : Scan) (second : Unit → Scan) : Scan :=
  match first.result with
  | .ok true =>
    let second := second ()
    ⟨first.held ++ second.held, second.result⟩
  | _ => first

end Scan

/-- The row of a single completion. The query is evaluated only where the base is true. -/
def row (t : TruthTable) (model : Assignment) : Scan :=
  match t.base.evaluate model with
  | .error e => ⟨[], .error e⟩
  | .ok false => ⟨[], .ok true⟩
  | .ok true =>
    match t.query.evaluate model with
    | .error e => ⟨[], .error e⟩
    | .ok value => ⟨[value], .ok value⟩

/-- Walks over the completions of a model by values for some symbols: the fixed value where there
    is one, otherwise true before false. -/
def scanFrom (t : TruthTable) : List String → Assignment → Scan
  | [], model => t.row model
  | name :: names, model =>
    match t.fixed.get? name with
    | some value => t.scanFrom names (model.insert name value)
    | none =>
      (t.scanFrom names (model.insert name true)).andThen fun _ =>
        t.scanFrom names (model.insert name false)

def scan (t : TruthTable) : Scan :=
  t.scanFrom t.symbols ∅

/-- Whether the query is true in all completions in which the base is. -/
def check (t : TruthTable) : Except EvalError Bool :=
  t.scan.result

/-- The number of entries in the list of symbols whose value is not fixed. -/
def free (t : TruthTable) : Nat :=
  t.symbols.countP fun name => (t.fixed.get? name).isNone

/-- The largest number of completions that is told apart from larger ones. -/
def maxModelCount : Nat :=
  Nat.pow 2 128 - 1

/-- The number of completions, or the largest count if there are more. -/
def modelCount (t : TruthTable) : Nat :=
  min (Nat.pow 2 t.free) maxModelCount

end TruthTable

/-- Whether a query is true in all completions of the fixed values in which the base is true. -/
def entails (base query : Formula) (fixed : Assignment) : Except EvalError Bool :=
  (TruthTable.ofFormulas base query fixed).check

end Propositional
