import Propositional.Entries
import Propositional.FileSystem
import Propositional.Path

namespace Propositional

/-- Files under the names of their places. There are the folders in which files lie, and the home
    folder. -/
structure Folder where
  files : Entries ByteArray

/-- What a path leads to: a folder, an entry that is no folder, which need not be there, or such an
    entry with only slashes behind it. -/
inductive Target
  | folder
  | entry (place : Place)
  | slashed (place : Place)

namespace Folder

/-- Gives a file its content, whether or not there was one at that place. -/
def put (folder : Folder) (place : Place) (content : ByteArray) : Folder :=
  ⟨folder.files.put place.name content⟩

def isFolder (folder : Folder) (place : Place) : Bool :=
  place.isPrefixOf Place.home ||
    folder.files.names.any fun name => (place.name ++ "/").toList.isPrefixOf name.toList

/-- The content of the file at a place. -/
def find (folder : Folder) (place : Place) : Except FileFault ByteArray :=
  if place.isTooLong then .error .nameTooLong
  else match folder.files.lookup place.name with
    | some content => .ok content
    | none => .error .notFound

/-- Why a path that goes on behind an entry leads nowhere. A file has nothing beneath it. -/
def faultBeneath (folder : Folder) (place : Place) : FileFault :=
  match folder.find place with
  | .ok _ => .notDirectory
  | .error fault => fault

/-- Follows the steps of a path from a place. -/
def follow (folder : Folder) (place : Place) : List String → Except FileFault Target
  | [] => .ok .folder
  | step :: rest =>
    if Path.isStay step then folder.follow place rest
    else if Path.isParent step then folder.follow place.dropLast rest
    else if folder.isFolder (place ++ [step]) then folder.follow (place ++ [step]) rest
    else if rest = [] then .ok (.entry (place ++ [step]))
    else if rest.all (· == "") then .ok (.slashed (place ++ [step]))
    else .error (folder.faultBeneath (place ++ [step]))

def locate (folder : Folder) (path : String) : Except FileFault Target :=
  match Path.fault? path with
  | some fault => .error fault
  | none => folder.follow (Path.start path) (Path.steps path)

def read (folder : Folder) (path : String) : Except FileFault ByteArray := do
  match ← folder.locate path with
  | .folder => .error .isDirectory
  | .entry place => folder.find place
  | .slashed place => .error (folder.faultBeneath place)

/-- Creates or replaces a file. An entry with a slash behind it cannot become one. -/
def write (folder : Folder) (path : String) (content : ByteArray) :
    Except FileFault Unit × Folder :=
  match folder.locate path with
  | .ok (.entry place) =>
    if place.isTooLong then (.error .nameTooLong, folder) else (.ok (), folder.put place content)
  | .ok _ => (.error .isDirectory, folder)
  | .error fault => (.error fault, folder)

variable {folder after : Folder} {place : Place} {path : String} {content : ByteArray}

theorem locate_of_read (h : folder.read path = .ok content) :
    ∃ place, folder.locate path = .ok (.entry place) ∧
      folder.files.lookup place.name = some content := by
  unfold read at h
  cases hlocate : folder.locate path with
  | error fault =>
    rw [hlocate] at h
    cases h
  | ok target =>
    rw [hlocate] at h
    cases target with
    | folder | slashed place => cases h
    | entry place =>
      refine ⟨place, rfl, ?_⟩
      change folder.find place = .ok content at h
      unfold find at h
      split at h
      · cases h
      · split at h
        · rename_i hlookup
          rw [hlookup, Except.ok.inj h]
        · cases h

theorem write_eq_ok_iff :
    folder.write path content = (.ok (), after) ↔
      ∃ place, folder.locate path = .ok (.entry place) ∧ place.isTooLong = false ∧
        after = folder.put place content := by
  unfold write
  constructor
  · intro h
    split at h
    · rename_i place hlocate
      split at h
      · cases h
      · rename_i hlong
        exact ⟨place, hlocate, by simpa using hlong, (Prod.mk.inj h).2.symm⟩
    · cases h
    · cases h
  · rintro ⟨place, hlocate, hlong, rfl⟩
    rw [hlocate]
    simp [hlong]

theorem eq_of_write_error {fault : FileFault} (h : folder.write path content = (.error fault, after)) :
    after = folder := by
  unfold write at h
  split at h
  · split at h
    · exact (Prod.mk.inj h).2.symm
    · cases h
  · exact (Prod.mk.inj h).2.symm
  · exact (Prod.mk.inj h).2.symm

/-- A folder stays one when a file is put somewhere. -/
theorem isFolder_put {other : Place} (h : folder.isFolder other = true) (place : Place)
    (content : ByteArray) : (folder.put place content).isFolder other = true := by
  simp only [isFolder, Bool.or_eq_true, List.any_eq_true] at h ⊢
  refine h.imp_right fun ⟨name, hname, hbeneath⟩ => ⟨name, ?_, hbeneath⟩
  exact (Entries.mem_names_put content).mpr (.inr hname)

/-- The place of a file that is put there does not become a folder. -/
theorem isFolder_put_self (h : folder.isFolder place = false) (content : ByteArray) :
    (folder.put place content).isFolder place = false := by
  simp only [isFolder, Bool.or_eq_false_iff, List.any_eq_false] at h ⊢
  refine ⟨h.1, fun name hname => ?_⟩
  rcases (Entries.mem_names_put content).mp hname with rfl | hname
  · intro hbeneath
    have hlength := (List.isPrefixOf_iff_prefix.mp hbeneath).length_le
    simp only [String.toList_append, List.length_append] at hlength
    exact absurd hlength (Nat.not_le_of_lt (Nat.lt_add_of_pos_right (by decide)))
  · exact h.2 name hname

/-- A path that leads to an entry still does when that has become a file. -/
theorem follow_put {start : Place} {steps : List String}
    (h : folder.follow start steps = .ok (.entry place)) (content : ByteArray) :
    (folder.put place content).follow start steps = .ok (.entry place) := by
  induction steps generalizing start with
  | nil => cases h
  | cons step rest ih =>
    unfold follow at h ⊢
    by_cases hstay : Path.isStay step = true
    · rw [if_pos hstay] at h ⊢
      exact ih h
    · rw [if_neg hstay] at h ⊢
      by_cases hparent : Path.isParent step = true
      · rw [if_pos hparent] at h ⊢
        exact ih h
      · rw [if_neg hparent] at h ⊢
        by_cases hfolder : folder.isFolder (start ++ [step]) = true
        · rw [if_pos hfolder] at h
          rw [if_pos (isFolder_put hfolder place content)]
          exact ih h
        · rw [if_neg hfolder] at h
          by_cases hlast : rest = []
          · rw [if_pos hlast] at h
            obtain rfl := Target.entry.inj (Except.ok.inj h)
            rw [if_neg (by simp [isFolder_put_self (Bool.eq_false_iff.mpr hfolder)]), if_pos hlast]
          · rw [if_neg hlast] at h
            split at h <;> cases h

theorem locate_put (h : folder.locate path = .ok (.entry place)) (content : ByteArray) :
    (folder.put place content).locate path = .ok (.entry place) := by
  unfold locate at h ⊢
  split at h
  · cases h
  · exact follow_put h content

theorem lookup_put (folder : Folder) (place : Place) (name : String) (content : ByteArray) :
    (folder.put place content).files.lookup name =
      if name = place.name then some content else folder.files.lookup name :=
  Entries.lookup_put folder.files place.name name content

theorem read_of_write (h : folder.write path content = (.ok (), after)) :
    after.read path = .ok content := by
  obtain ⟨place, hlocate, hlong, rfl⟩ := write_eq_ok_iff.mp h
  rw [read, locate_put hlocate]
  change (folder.put place content).find place = .ok content
  rw [find, hlong, lookup_put, if_pos rfl]
  rfl

/-- The name of the file to which a path leads. -/
def fileAt? (folder : Folder) (path : String) : Option String :=
  match folder.locate path with
  | .ok (.entry place) => some place.name
  | _ => none

theorem fileAt?_of_locate (h : folder.locate path = .ok (.entry place)) :
    folder.fileAt? path = some place.name := by
  rw [fileAt?, h]

/-- The files of a folder as a file system. -/
def system : FileSystem Folder String where
  fileAt? := fileAt?
  content? folder name := folder.files.lookup name
  read := read
  write := write
  exists_fileAt?_of_read h := by
    obtain ⟨place, hlocate, hlookup⟩ := locate_of_read h
    exact ⟨place.name, fileAt?_of_locate hlocate, hlookup⟩
  content?_of_write_error h file := by rw [eq_of_write_error h]
  read_of_write := read_of_write
  content?_of_write h hfile := by
    obtain ⟨place, hlocate, _, rfl⟩ := write_eq_ok_iff.mp h
    rw [fileAt?_of_locate (locate_put hlocate _)] at hfile
    rw [lookup_put, if_neg fun hname => hfile (congrArg some hname.symm)]

/-- The content of a file as text. -/
def readText (folder : Folder) (path : String) : Except FileFault String :=
  system.readText folder path

/-- The files in the home folder that were not there before, or had another content. -/
def changes (before after : Folder) : Entries ByteArray :=
  after.files.filter fun (name, content) =>
    !name.toList.contains '/' && before.files.lookup name != some content

end Folder

end Propositional
