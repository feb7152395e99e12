import ConferenceBadge.Demo.Service
import ConferenceBadge.FileSystem

/-!
The store of demo apps: a folder for each app below `lib`, with the manifest in it. The list of apps
is read once; manifests are read whenever they are asked for.
-/
namespace ConferenceBadge

/-- The apps found below a root, and the files as they are now. -/
structure AppStore where
  /-- the names of the apps in order; none if there is no `lib` -/
  names : Option (List String)
  root : Path
  files : FileSystem

namespace AppStore

def absent : AppStore := ⟨none, .ofText "", .empty⟩

/-- The file that holds an app's manifest. -/
def manifestName : String := "service.json"

def appsPath (root : Path) : Path := root.join (.ofText "lib")

def manifestPath (root : Path) (app : String) : Path :=
  ((appsPath root).join (.ofText app)).join (.ofText manifestName)

/-- A name put in its place among names in order. -/
def putInOrder (name : String) : List String → List String
  | [] => [name]
  | other :: rest => if other < name then other :: putInOrder name rest else name :: other :: rest

/-- The names of the folders among a folder's entries that are texts, in order. -/
def folderNames : FileTree → Option (List String)
  | .file _ => none
  | .folder entries =>
    let folders := entries.filter fun e => e.2.isFolder
    some ((folders.filterMap fun e => String.fromUTF8? e.1).foldr putInOrder [])

def scan (root : Path) (files : FileSystem) : Option (List String) :=
  (files.find? (appsPath root)).bind folderNames

def ofRoot (root : Path) (files : FileSystem) : AppStore := ⟨scan root files, root, files⟩

def count (s : AppStore) : Except Service.StorageError Nat :=
  match s.names with
  | some names => .ok names.length
  | none => .error .unavailable

/-- The name of an app, unless it is too long. -/
def name? (s : AppStore) (index : Nat) : Option Service.AppName := do
  Service.AppName.ofString? (← (← s.names)[index]?)

/-- The manifest of an app, of so many bytes at most. -/
def manifest (s : AppStore) (app : String) (limit : Nat) : Except Service.StorageError String :=
  match s.files.content? (manifestPath s.root app) with
  | none => .error .notFound
  | some bytes =>
    if limit < bytes.size then .error .tooLarge
    else
      match String.fromUTF8? bytes with
      | some text => .ok text
      | none => .error .invalid

def service (app : String) : Except Service.StorageError DemoService :=
  match DemoService.forApp? app with
  | some service => .ok service
  | none => .error .notFound

end AppStore
end ConferenceBadge
