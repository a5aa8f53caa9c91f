import Mathlib.Logic.Function.Basic
import Propositional.Assignment

namespace Propositional.Assignment

/-- A valuation that gives each symbol of an assignment the value it has there.
    What it gives to other symbols is left open. -/
def Agrees (a : Assignment) (v : String → Bool) : Prop :=
  ∀ name value, a.get? name = some value → v name = value

/-- The values of an assignment, completed by those of a valuation. -/
def completedBy (a : Assignment) (v : String → Bool) : String → Bool :=
  fun name => (a.get? name).getD (v name)

theorem agrees_empty (v : String → Bool) : Agrees ∅ v := by
  intro name value h
  simp at h

theorem agrees_completedBy (a : Assignment) (v : String → Bool) : a.Agrees (a.completedBy v) := by
  intro name value h
  simp [completedBy, h]

/-- The values of an assignment, where a symbol without one counts as false. -/
def valuation (a : Assignment) : String → Bool :=
  a.completedBy fun _ => false

theorem agrees_valuation (a : Assignment) : a.Agrees a.valuation :=
  agrees_completedBy a _

theorem completedBy_of_get?_eq_none {a : Assignment} {name : String} (v : String → Bool)
    (h : a.get? name = none) : a.completedBy v name = v name := by
  simp [completedBy, h]

theorem Agrees.insert {a : Assignment} {v : String → Bool} (h : a.Agrees v) (name : String) :
    (a.insert name (v name)).Agrees v := by
  intro other value hget
  rw [get?_insert] at hget
  split at hget
  · rename_i heq
    rw [heq]
    exact Option.some.inj hget
  · exact h other value hget

theorem Agrees.insert_update {a : Assignment} {v : String → Bool} (h : a.Agrees v) (name : String)
    (value : Bool) : (a.insert name value).Agrees (Function.update v name value) := by
  intro other held hget
  rw [get?_insert] at hget
  split at hget
  · rename_i heq
    rw [heq, Function.update_self]
    exact Option.some.inj hget
  · rename_i hne
    rw [Function.update_of_ne hne]
    exact h other held hget

/-- A symbol may change its value unless the assignment gives it another one. -/
theorem Agrees.update {a : Assignment} {v : String → Bool} (h : a.Agrees v) {name : String}
    {value : Bool} (hname : ∀ held, a.get? name = some held → held = value) :
    a.Agrees (Function.update v name value) := by
  intro other held hget
  by_cases heq : other = name
  · subst heq
    rw [Function.update_self]
    exact (hname held hget).symm
  · rw [Function.update_of_ne heq]
    exact h other held hget

/-- For some names two assignments have the same values, and none for the same ones. -/
def SameOn (names : List String) (a b : Assignment) : Prop :=
  ∀ name ∈ names, a.get? name = b.get? name

instance (names : List String) (a b : Assignment) : Decidable (a.SameOn names b) :=
  inferInstanceAs (Decidable (∀ name ∈ names, a.get? name = b.get? name))

theorem SameOn.symm {names : List String} {a b : Assignment} (h : a.SameOn names b) :
    b.SameOn names a :=
  fun name hname => (h name hname).symm

theorem SameOn.mono {names others : List String} {a b : Assignment} (h : a.SameOn others b)
    (hnames : names ⊆ others) : a.SameOn names b :=
  fun name hname => h name (hnames hname)

/-- An assignment that has a value for a name has the one of each valuation that it agrees with. -/
theorem Agrees.get?_eq {a : Assignment} {v : String → Bool} (h : a.Agrees v) {name : String}
    (hbound : (a.get? name).isSome = true) : a.get? name = some (v name) := by
  obtain ⟨value, hvalue⟩ := Option.isSome_iff_exists.mp hbound
  rw [hvalue, h name value hvalue]

end Propositional.Assignment
