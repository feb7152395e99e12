import ConferenceBadge.FileTree
import ConferenceBadge.Path

/-!
A file tree with a working folder: where paths lead, and how files and folders are made. Paths are
followed part by part: an empty part and a dot stay, two dots go back (and stay in the outermost
folder), and any other part is a name in the folder reached so far.
-/
namespace ConferenceBadge

/-- Why a path leads nowhere, or why nothing can be made there. -/
inductive FileError where
  | notFound | alreadyExists | notADirectory | isADirectory | nameTooLong
deriving DecidableEq

/-- The wording of a file error: its number, its kind and its text. -/
def FileError.message (e : FileError) : String :=
  let about (code : Nat) (kind text : String) : String :=
    s!"Os \x7b code: {code}, kind: {kind}, message: \"{text}\" \x7d"
  match e with
  | notFound => about 2 "NotFound" "No such file or directory"
  | alreadyExists => about 17 "AlreadyExists" "File exists"
  | notADirectory => about 20 "NotADirectory" "Not a directory"
  | isADirectory => about 21 "IsADirectory" "Is a directory"
  | nameTooLong => about 36 "InvalidFilename" "File name too long"

/-- All files, and the folder at which paths begin. -/
structure FileSystem where
  top : FileTree
  here : Place

/-- An operation on files that may fail; what it has made before that stays. -/
abbrev Files (α : Type) : Type := EStateM FileError FileSystem α

namespace FileSystem

def empty : FileSystem := ⟨.emptyFolder, []⟩

/-- The longest name, in bytes. -/
def longestName : Nat := 255

/-- The longest path, in bytes. -/
def longestPath : Nat := 4095

/-- Whether there is a folder at a place. -/
def isFolder (fs : FileSystem) (place : Place) : Bool := (fs.top.at? place).any FileTree.isFolder

/-- Where one part of a path leads from a place. -/
def step (fs : FileSystem) (place : Place) (part : String) : Except FileError Place :=
  let named := place ++ [part.toUTF8]
  if !fs.isFolder place then .error .notADirectory
  else if Path.stays part then .ok place
  else if part = ".." then .ok place.dropLast
  else if longestName < part.utf8ByteSize then .error .nameTooLong
  else if (fs.top.at? named).isNone then .error .notFound
  else .ok named

/-- Where parts of a path lead from a place. -/
def follow (fs : FileSystem) (place : Place) (parts : List String) : Except FileError Place :=
  parts.foldlM fs.step place

/-- A path is followed in two stages wherever it is cut. -/
theorem follow_append (fs : FileSystem) (place : Place) (first second : List String) :
    fs.follow place (first ++ second) =
      (fs.follow place first).bind fun reached => fs.follow reached second :=
  List.foldlM_append

/-- Where a path begins, unless it is empty or too long. -/
def start (fs : FileSystem) (path : Path) : Except FileError Place :=
  if path.isEmpty then .error .notFound
  else if longestPath < path.text.utf8ByteSize then .error .nameTooLong
  else .ok (if path.isAbsolute then [] else fs.here)

/-- Where a path leads. -/
def locate (fs : FileSystem) (path : Path) : Except FileError Place := do
  fs.follow (← fs.start path) path.parts

def find? (fs : FileSystem) (path : Path) : Option FileTree :=
  (fs.locate path).toOption.bind fs.top.at?

/-- The bytes of the file that a path leads to. -/
def content? (fs : FileSystem) (path : Path) : Option ByteArray := (fs.find? path).bind (·.content?)

def put (fs : FileSystem) (place : Place) (entry : FileTree) : FileSystem :=
  { fs with top := fs.top.put place entry }

/-- The files with other bytes in the file at a place, if there still is one. -/
def write (fs : FileSystem) (place : Place) (content : ByteArray) : FileSystem :=
  if (fs.top.at? place).any (!·.isFolder) then fs.put place (.file content) else fs

/-- A file that is there holds what was written last. -/
theorem at?_write (fs : FileSystem) (place : Place) (content : ByteArray)
    (there : (fs.top.at? place).any (!·.isFolder)) :
    (fs.write place content).top.at? place = some (.file content) := by
  rw [write, if_pos there]
  refine FileTree.at?_put fs.top place (.file content) ?_
  cases held : fs.top.at? place with
  | none => simp only [held, Option.any_none, Bool.false_eq_true] at there
  | some entry => rfl

/-- The place of an entry in a folder, and whether there is one already. -/
def entry (fs : FileSystem) (folder : Place) (name : String) : Except FileError (Place × Bool) :=
  match fs.step folder name with
  | .ok place => .ok (place, true)
  | .error .notFound => .ok (folder ++ [name.toUTF8], false)
  | .error e => .error e

def makeFolder (path : Path) : Files Unit := do
  let fs ← get
  let folder ← ofExcept (do fs.follow (← fs.start path) path.parts.dropLast)
  let (place, taken) ← ofExcept (fs.entry folder (path.parts.getLastD ""))
  if taken then throw .alreadyExists
  set (fs.put place .emptyFolder)

/-- Goes on after an error if the path leads to a folder all the same. -/
def forgive (path : Path) (e : FileError) : Files Unit := do
  unless ((← get).find? path).any FileTree.isFolder do throw e

/-- Makes a folder, and those that lead to it where they are missing; the parts of its path stand
last first. Only if the folder around it is missing does it look further out. -/
def makeFolders : List String → Files Unit
  | [] => pure ()
  | part :: around =>
    if Path.stays part then makeFolders around
    else
      let path : Path := ⟨(part :: around).reverse⟩
      tryCatch (makeFolder path) fun e => do
        if e = .notFound then
          makeFolders around
          tryCatch (makeFolder path) (forgive path)
        else forgive path e

/-- Makes an empty file, or empties the one that is there; gives its place. -/
def makeFile (path : Path) : Files Place := do
  let fs ← get
  let parts := (path.parts.reverse.dropWhile (· = "")).reverse
  let folder ← ofExcept (do fs.follow (← fs.start path) (parts.dropLast ++ ["."]))
  if path.endsInSlash then throw .isADirectory
  let (place, _) ← ofExcept (fs.entry folder (parts.getLastD ""))
  if fs.isFolder place then throw .isADirectory
  set (fs.put place (.file .empty))
  return place

/-- Makes an empty file and the folders that lead to it. -/
def makeFileAndFolders (path : Path) : Files Place := do
  makeFolders path.aroundParts
  makeFile path

end FileSystem
end ConferenceBadge
