import Propositional.Error
import Propositional.Knowledge.Fact
import Propositional.Text.Lines
import Propositional.Verdict

namespace Propositional

/-- Rules, and the symbols whose value is fixed, so that they need not be enumerated. -/
structure Knowledge where
  rules : List Formula
  fixed : Assignment

/-- A line that could not be read, counted from one. -/
structure LineError where
  number : Nat
  cause : ParseError
  deriving DecidableEq

namespace Knowledge

instance : EmptyCollection Knowledge := ⟨⟨[], ∅⟩⟩

instance : Inhabited Knowledge := ⟨∅⟩

/-- Adds the fact that a line fixes, if it fixes one. -/
def note (k : Knowledge) (line : String) : Knowledge :=
  match fact? line with
  | some (name, value) => { k with fixed := k.fixed.insert name value }
  | none => k

def addRule (k : Knowledge) (rule : Formula) : Knowledge :=
  { k with rules := k.rules ++ [rule] }

/-- What became of some lines: the knowledge after the last line that was looked at, what was left
    over on the lines read, and the line at which reading stopped. -/
structure Loaded where
  knowledge : Knowledge
  trailing : List TrailingInput
  failure? : Option LineError

/-- Loads lines, of which the first has the given number. Each line that is not skipped states a
    rule; what it fixes counts even if the rule cannot be read. -/
def loadLines (k : Knowledge) (number : Nat) : List String → Loaded
  | [] => ⟨k, [], none⟩
  | line :: lines =>
    let line := Text.stripTerminators line
    if isSkipped line then loadLines k (number + 1) lines
    else
      match Formula.read line with
      | .error cause => ⟨k.note line, [], some ⟨number, cause⟩⟩
      | .ok reading =>
        let later := loadLines ((k.note line).addRule reading.formula) (number + 1) lines
        { later with trailing := reading.trailing?.toList ++ later.trailing }

def load (k : Knowledge) (text : String) : Loaded :=
  k.loadLines 1 (Text.lines text)

/-- The error of a source of the given name whose lines could not all be read. -/
def Loaded.error? (loaded : Loaded) (name : String) : Option Error :=
  loaded.failure?.map fun failure => .parse name failure.number failure.cause

/-- All rules as one formula. -/
def base (k : Knowledge) : Formula :=
  .all k.rules

def check (k : Knowledge) : Except Error Unit :=
  k.base.check.mapError .invalidKnowledgeBase

/-- Decides a statement, which has to be well formed; the rules are used as they are. -/
def judge (k : Knowledge) (statement : Formula) : Except Error Decision := do
  statement.negate.check.mapError Error.invalidStatement
  (Decision.reach k.base statement k.fixed).mapError .eval

end Knowledge

end Propositional
