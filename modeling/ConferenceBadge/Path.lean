/-!
Paths as they are written: the parts between their slashes, read and written without loss.
-/
namespace ConferenceBadge

/-- A path, as the parts that its slashes separate. The empty path is one empty part; a path that
begins with a slash has an empty part before others. -/
structure Path where
  parts : List String
deriving DecidableEq

namespace Path

/-- What stands before the first slash, and what stands between the others and after them. -/
def cutAtSlashes : List Char → List Char × List (List Char)
  | [] => ([], [])
  | c :: rest =>
    let cut := cutAtSlashes rest
    if c = '/' then ([], cut.1 :: cut.2) else (c :: cut.1, cut.2)

def ofText (text : String) : Path :=
  let cut := cutAtSlashes text.toList
  ⟨(cut.1 :: cut.2).map String.ofList⟩

/-- Parts with a slash before each. -/
def slashed : List String → String
  | [] => ""
  | part :: rest => "/" ++ part ++ slashed rest

def text : Path → String
  | ⟨[]⟩ => ""
  | ⟨first :: rest⟩ => first ++ slashed rest

/-- Cutting at slashes and putting them back loses nothing. -/
theorem text_ofText (text : String) : (ofText text).text = text := by
  suffices whole : ∀ cs : List Char,
      String.ofList (cutAtSlashes cs).1 ++ slashed ((cutAtSlashes cs).2.map String.ofList) =
        String.ofList cs by
    simpa [ofText, Path.text] using whole text.toList
  intro cs
  induction cs with
  | nil => rfl
  | cons c rest ih =>
    rw [cutAtSlashes]
    split
    · next slash =>
      subst slash
      show "" ++ ("/" ++ String.ofList (cutAtSlashes rest).1 ++
        slashed ((cutAtSlashes rest).2.map String.ofList)) = String.ofList ('/' :: rest)
      rw [String.append_assoc, ih]
      simp
    · simpa [← String.toList_inj] using ih

/-- Whether the path begins with a slash, and so at the outermost folder. -/
def isAbsolute : Path → Bool
  | ⟨first :: _ :: _⟩ => first = ""
  | _ => false

def isEmpty (p : Path) : Bool := p.parts = [""]

/-- Whether the path ends in a slash, and so can only be a folder's. -/
def endsInSlash (p : Path) : Bool := p.parts.getLast? = some "" && !p.isEmpty

/-- A path that goes on from where another leads. One that begins with a slash begins anew. -/
def join (p q : Path) : Path :=
  if q.isAbsolute then q
  else if p.parts.getLast? = some "" then ⟨p.parts.dropLast ++ q.parts⟩
  else ⟨p.parts ++ q.parts⟩

/-- Whether a part leads nowhere else. -/
def stays (part : String) : Bool := part = "" || part = "."

/-- The parts that lead to the folder around what the path names, the last part first. -/
def aroundParts (p : Path) : List String := ((p.parts.reverse.dropWhile stays).drop 1).dropWhile stays

end Path
end ConferenceBadge
