namespace Propositional

/-- Values under names, where the first entry for a name counts. -/
abbrev Entries (α : Type) := List (String × α)

namespace Entries

variable {α : Type}

def names (entries : Entries α) : List String :=
  entries.map Prod.fst

/-- Puts a value under a name in place of the values it had. -/
def put (entries : Entries α) (name : String) (value : α) : Entries α :=
  (name, value) :: entries.filter (·.1 != name)

theorem lookup_filter_ne {name other : String} (hother : other ≠ name) (entries : Entries α) :
    (entries.filter (·.1 != name)).lookup other = entries.lookup other := by
  induction entries with
  | nil => rfl
  | cons entry entries ih =>
    obtain ⟨key, value⟩ := entry
    by_cases hkey : key = name
    · have hskip : (other == name) = false := by simpa using hother
      simp [hkey, List.lookup_cons, hskip, ih]
    · simp [hkey, List.lookup_cons, ih]

theorem lookup_put (entries : Entries α) (name other : String) (value : α) :
    (entries.put name value).lookup other = if other = name then some value else entries.lookup other := by
  by_cases hother : other = name
  · simp [put, hother]
  · have hskip : (other == name) = false := by simpa using hother
    simp [put, hother, List.lookup_cons, hskip, lookup_filter_ne hother]

theorem mem_names_put {entries : Entries α} {name other : String} (value : α) :
    other ∈ (entries.put name value).names ↔ other = name ∨ other ∈ entries.names := by
  by_cases hother : other = name
  · simp [put, names, hother]
  · simp [put, names, hother]

/-- Names that are distinct stay so. -/
theorem nodup_names_put {entries : Entries α} (h : entries.names.Nodup) (name : String) (value : α) :
    (entries.put name value).names.Nodup := by
  refine List.nodup_cons.mpr ⟨by simp, ?_⟩
  exact h.sublist (List.filter_sublist.map Prod.fst)

/-- Where no name occurs twice, looking up finds just the entries that are there. -/
theorem lookup_eq_some_iff {entries : Entries α} (h : entries.names.Nodup) {name : String}
    {value : α} : entries.lookup name = some value ↔ (name, value) ∈ entries := by
  induction entries with
  | nil => simp
  | cons entry entries ih =>
    obtain ⟨key, held⟩ := entry
    obtain ⟨habsent, hentries⟩ := List.nodup_cons.mp h
    by_cases hname : name = key
    · subst hname
      have hfresh : (name, value) ∉ entries := fun hmem => habsent (List.mem_map.mpr ⟨_, hmem, rfl⟩)
      simp [hfresh, eq_comm]
    · have hskip : (name == key) = false := by simpa using hname
      simp [List.lookup_cons, hskip, hname, ih hentries]

end Entries

end Propositional
