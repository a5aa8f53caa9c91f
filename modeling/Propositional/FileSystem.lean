import Propositional.Error

namespace Propositional

/-- How files are read and written, in the monad in which that is done. -/
structure FileOperations (m : Type → Type) where
  read (path : String) : m (Except FileFault ByteArray)
  write (path : String) (content : ByteArray) : m (Except FileFault Unit)

/-- The text that the bytes of a file spell. -/
def decode (content : ByteArray) : Except FileFault String :=
  match String.fromUTF8? content with
  | some text => .ok text
  | none => .error .notUtf8

def FileOperations.readText {m : Type → Type} [Monad m] (files : FileOperations m) (path : String) :
    m (Except FileFault String) := do
  let content ← files.read path
  return content.bind decode

/-- A file system whose files are in some state. A path may lead to a file, and several paths to the
    same one. Reading gives all that the file of a path holds, and changes nothing. Writing either
    fails and leaves every file as it was, or gives the file to which the path then leads just the
    content that was written, and leaves every other file as it was. -/
structure FileSystem (State File : Type) where
  fileAt? : State → String → Option File
  content? : State → File → Option ByteArray
  read : State → String → Except FileFault ByteArray
  write : State → String → ByteArray → Except FileFault Unit × State
  exists_fileAt?_of_read {s : State} {path : String} {content : ByteArray}
    (h : read s path = .ok content) :
    ∃ file, fileAt? s path = some file ∧ content? s file = some content
  content?_of_write_error {s after : State} {path : String} {content : ByteArray} {fault : FileFault}
    (h : write s path content = (.error fault, after)) (file : File) :
    content? after file = content? s file
  read_of_write {s after : State} {path : String} {content : ByteArray}
    (h : write s path content = (.ok (), after)) :
    read after path = .ok content
  content?_of_write {s after : State} {path : String} {content : ByteArray} {file : File}
    (h : write s path content = (.ok (), after)) (hfile : fileAt? after path ≠ some file) :
    content? after file = content? s file

namespace FileSystem

variable {State File : Type}

def operations (system : FileSystem State File) : FileOperations (StateM State) where
  read path := fun s => (system.read s path, s)
  write path content := fun s => system.write s path content

/-- The text to which a path leads. -/
def readText (system : FileSystem State File) (s : State) (path : String) :
    Except FileFault String :=
  (system.read s path).bind decode

end FileSystem

end Propositional
