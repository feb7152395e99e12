/-!
Files and folders: names are bytes, and a place is the names that lead to it.
-/
namespace ConferenceBadge

/-- A file, or a folder with named entries. -/
inductive FileTree where
  | file (content : ByteArray)
  | folder (entries : List (ByteArray × FileTree))

/-- The names that lead to a file or a folder from the outermost folder. -/
abbrev Place : Type := List ByteArray

namespace FileTree

def emptyFolder : FileTree := folder []

def isFolder : FileTree → Bool
  | file _ => false
  | folder _ => true

def content? : FileTree → Option ByteArray
  | file content => some content
  | folder _ => none

def hasName (name : ByteArray) (entry : ByteArray × FileTree) : Bool := entry.1.data == name.data

def child? (t : FileTree) (name : ByteArray) : Option FileTree :=
  match t with
  | file _ => none
  | folder entries => (entries.find? (hasName name)).map (·.2)

def at? (t : FileTree) : Place → Option FileTree
  | [] => some t
  | name :: rest => (t.child? name).bind (·.at? rest)

/-- The folder with an entry under a name, in place of what was there. -/
def insert (t : FileTree) (name : ByteArray) (entry : FileTree) : FileTree :=
  match t with
  | file content => file content
  | folder entries => folder (entries.filter (fun e => !hasName name e) ++ [(name, entry)])

/-- The folder without the entry under a name. -/
def erase (t : FileTree) (name : ByteArray) : FileTree :=
  match t with
  | file content => file content
  | folder entries => folder (entries.filter fun e => !hasName name e)

/-- The tree with something at a place, in place of what was there. Folders that lead there are made
where they are missing. -/
def put (t : FileTree) (place : Place) (entry : FileTree) : FileTree :=
  match place with
  | [] => entry
  | name :: rest => t.insert name (((t.child? name).getD emptyFolder).put rest entry)

theorem find?_named_filter (name : ByteArray) (entries : List (ByteArray × FileTree)) :
    (entries.filter fun e => !hasName name e).find? (hasName name) = none := by
  simp [List.find?_eq_none]

theorem child?_insert (entries : List (ByteArray × FileTree)) (name : ByteArray) (entry : FileTree) :
    ((folder entries).insert name entry).child? name = some entry := by
  have found : hasName name (name, entry) := by simp [hasName]
  simp only [insert, child?, List.find?_append, find?_named_filter, Option.none_or, List.find?_cons,
    found, Option.map_some]

theorem child?_erase (t : FileTree) (name : ByteArray) : (t.erase name).child? name = none := by
  cases t with
  | file content => rfl
  | folder entries => simp only [erase, child?, find?_named_filter, Option.map_none]

/-- What is put where something was is found there. -/
theorem at?_put (t : FileTree) (place : Place) (entry : FileTree) (there : (t.at? place).isSome) :
    (t.put place entry).at? place = some entry := by
  induction place generalizing t with
  | nil => rfl
  | cons name rest ih =>
    cases t with
    | file content => simp only [at?, child?, Option.bind_none, Option.isSome_none, Bool.false_eq_true] at there
    | folder entries =>
      rw [at?] at there
      cases held : (folder entries).child? name with
      | none => simp only [held, Option.bind_none, Option.isSome_none, Bool.false_eq_true] at there
      | some inner =>
        rw [held, Option.bind_some] at there
        rw [put, at?, child?_insert, Option.bind_some, held, Option.getD_some]
        exact ih inner there

end FileTree
end ConferenceBadge
