import Propositional.Proofs.Except
import Propositional.FileSystem

namespace Propositional

theorem decode_toUTF8 (text : String) : decode text.toUTF8 = .ok text := by
  have hdecoded : String.fromUTF8? text.toUTF8 = some text := by
    rw [String.fromUTF8?, dif_pos (show text.toUTF8.IsValidUTF8 from text.isValidUTF8)]
    rfl
  rw [decode, hdecoded]

namespace FileSystem

variable {State File : Type} (system : FileSystem State File) {before after : State}
  {path text : String}

/-- No file was made, removed or changed. -/
def Unchanged (before after : State) : Prop :=
  ∀ file, system.content? after file = system.content? before file

/-- A text was written to the file of a path, which is read as that text from then on, and nothing
    happened to any other file. -/
def Recorded (before after : State) (path text : String) : Prop :=
  ∃ file, system.fileAt? after path = some file ∧
    system.content? after file = some text.toUTF8 ∧ system.readText after path = .ok text ∧
    ∀ other, other ≠ file → system.content? after other = system.content? before other

theorem unchanged_refl (s : State) : system.Unchanged s s := fun _ => rfl

variable {system}

theorem unchanged_of_write {fault : FileFault}
    (h : system.write before path text.toUTF8 = (.error fault, after)) :
    system.Unchanged before after :=
  system.content?_of_write_error h

theorem recorded_of_write (h : system.write before path text.toUTF8 = (.ok (), after)) :
    system.Recorded before after path text := by
  have hread := system.read_of_write h
  obtain ⟨file, hfile, hcontent⟩ := system.exists_fileAt?_of_read hread
  refine ⟨file, hfile, hcontent, ?_, fun other hother => system.content?_of_write h ?_⟩
  · rw [readText, hread]
    exact decode_toUTF8 text
  · rw [hfile]
    exact fun hsame => hother (Option.some.inj hsame).symm

end FileSystem

end Propositional
