import Propositional.Entries

namespace Propositional

/-- Truth values for finitely many symbols, one for each. -/
structure Assignment where
  entries : Entries Bool
  nodup : entries.names.Nodup

namespace Assignment

instance : EmptyCollection Assignment := ⟨⟨[], List.nodup_nil⟩⟩

instance : Inhabited Assignment := ⟨∅⟩

/-- The value of a symbol, if it has one. -/
def get? (a : Assignment) (name : String) : Option Bool :=
  a.entries.lookup name

/-- Gives a symbol a value in place of the one it had. -/
def insert (a : Assignment) (name : String) (value : Bool) : Assignment :=
  ⟨a.entries.put name value, Entries.nodup_names_put a.nodup name value⟩

/-- The values of some entries, where a later entry for a symbol takes the place of an earlier one. -/
def ofList (entries : List (String × Bool)) : Assignment :=
  entries.foldl (fun a entry => a.insert entry.1 entry.2) ∅

@[simp] theorem get?_empty (name : String) : (∅ : Assignment).get? name = none := rfl

theorem get?_insert (a : Assignment) (name other : String) (value : Bool) :
    (a.insert name value).get? other = if other = name then some value else a.get? other :=
  Entries.lookup_put a.entries name other value

theorem get?_eq_some_iff {a : Assignment} {name : String} {value : Bool} :
    a.get? name = some value ↔ (name, value) ∈ a.entries :=
  Entries.lookup_eq_some_iff a.nodup

@[simp] theorem get?_insert_self (a : Assignment) (name : String) (value : Bool) :
    (a.insert name value).get? name = some value := by
  simp [get?_insert]

end Assignment

end Propositional
