/-!
Reading a manifest's text one character at a time. The reader is a machine: `step` says what each
character leads to, `atEnd` what the end of the text means. It takes the members that a manifest
knows and skips the rest without judging more than brackets, commas and quotes. Keys are compared as
they are written, escapes included.
-/
namespace ConferenceBadge.Manifest

/-- Why a text is not a manifest's. -/
inductive ReadError where
  | listCutOff | objectCutOff | stringCutOff | valueCutOff
  | colonExpected | listEndExpected | objectEndExpected | wordExpected | valueExpected
  | invalidNumber | invalidType | keyNotString | trailingCharacters | trailingComma
  /-- a known key occurs twice -/
  | repeatedKey
deriving DecidableEq

def ReadError.message : ReadError → String
  | listCutOff => "EOF while parsing a list."
  | objectCutOff => "EOF while parsing an object."
  | stringCutOff => "EOF while parsing a string."
  | valueCutOff => "EOF while parsing a JSON value."
  | colonExpected => "Expected this character to be a `':'`."
  | listEndExpected => "Expected this character to be either a `','` ora `']'`."
  | objectEndExpected => "Expected this character to be either a `','` or a `'\x7d'`."
  | wordExpected => "Expected to parse either a `true`, `false`, or a `null`."
  | valueExpected => "Expected this character to start a JSON value."
  | invalidNumber => "Invalid number."
  | invalidType => "Invalid type"
  | keyNotString => "Object key is not a string."
  | trailingCharacters => "JSON has non-whitespace trailing characters after the value."
  | trailingComma => "JSON has a comma after the last value in an array or map."
  | repeatedKey => "JSON does not match deserializer’s expected format."

/-- The members that a manifest knows. -/
inductive Field where
  | apiVersion | wifi | rtc | loop | draw
  /-- within `wifi` -/
  | wifiSetup
  /-- within `wifi` -/
  | wifiLoop
deriving DecidableEq

/-- Whose members an object holds. -/
inductive Scope where
  | manifest | wifi | unknown
deriving DecidableEq

/-- The member that a key names in an object. -/
def Scope.field? (s : Scope) (key : String) : Option Field :=
  match s with
  | .manifest =>
    if key = "apiVersion" then some .apiVersion
    else if key = "wifi" then some .wifi
    else if key = "rtc" then some .rtc
    else if key = "loop" then some .loop
    else if key = "draw" then some .draw
    else none
  | .wifi =>
    if key = "setup" then some .wifiSetup
    else if key = "loop" then some .wifiLoop
    else none
  | .unknown => none

/-- What was read: the keys that occurred, and the values that were not null. -/
structure Seen where
  keys : List Field
  apiVersion : Option Nat
  wifi : Bool
  flags : List (Field × Bool)
deriving DecidableEq

def Seen.nothing : Seen := ⟨[], none, false, []⟩

/-- The value of a flag that was read. -/
def Seen.flag? (s : Seen) (f : Field) : Option Bool := s.flags.lookup f

/-- An object or list that is open; `fresh` until its first member or element, which alone needs no
comma before it. -/
inductive Frame where
  | object (scope : Scope) (fresh : Bool)
  | list (fresh : Bool)
deriving DecidableEq

/-- What is expected next. -/
inductive Expecting where
  /-- the manifest's opening brace -/
  | opening
  /-- the end of the innermost object or list, a comma, or its first member or element -/
  | next
  /-- the member or element after a comma -/
  | afterComma
  /-- the rest of a key, so much of it read (latest first); `escaped` after an odd run of backslashes -/
  | key (read : List Char) (escaped : Bool)
  /-- the colon after a key -/
  | colon (field : Option Field)
  /-- the value of a member or element -/
  | value (field : Option Field)
  /-- a character of a word, and the rest of the word after it -/
  | word (letter : Char) (rest : List Char)
  /-- more digits of a number -/
  | digits (value : Nat)
  /-- the rest of a skipped string -/
  | string (escaped : Bool)
  /-- the end of a skipped value that is neither string, list nor object -/
  | delimiter
  /-- nothing: the manifest has ended -/
  | nothing
deriving DecidableEq

/-- The reader's state: what was read, what is open (innermost first) and what is expected. -/
structure Reader where
  seen : Seen
  frames : List Frame
  expecting : Expecting
deriving DecidableEq

namespace Reader

/-- The state before the first character. -/
def initial : Reader := ⟨.nothing, [], .opening⟩

/-- Whether a character may stand between the parts of a text. -/
def isSpace (c : Char) : Bool := c = ' ' || c = '\n' || c = '\t' || c = '\r'

/-- The largest number that an API version may be. -/
def largestVersion : Nat := 4294967295

/-- The state with other expectations. -/
def expect (r : Reader) (e : Expecting) : Reader := { r with expecting := e }

/-- A value of the innermost object or list has ended, or it is empty so far. -/
def afterValue (r : Reader) : Reader := r.expect .next

def push (r : Reader) (f : Frame) : Reader := { r with frames := f :: r.frames, expecting := .next }

def pop (r : Reader) : Reader :=
  match r.frames with
  | [] | [_] => { r with frames := [], expecting := .nothing }
  | _ :: outer => { r with frames := outer, expecting := .next }

def setFlag (r : Reader) (f : Field) (value : Bool) (e : Expecting) : Reader :=
  { r with seen := { r.seen with flags := (f, value) :: r.seen.flags }, expecting := e }

/-- Reads an API version as far as its digits go. -/
def setVersion (r : Reader) (n : Nat) (e : Expecting) : Reader :=
  { r with seen := { r.seen with apiVersion := some n }, expecting := e }

/-- The first character of a known member's value. -/
def knownValue (r : Reader) (f : Field) (c : Char) : Except ReadError Reader :=
  if c = 'n' then .ok (r.expect (.word 'u' ['l', 'l']))
  else
    match f with
    | .apiVersion =>
      if c = '-' then .error .invalidNumber
      else if c = '0' then .ok (r.setVersion 0 .next)
      else if c.isDigit then
        let n := c.toNat - '0'.toNat
        .ok (r.setVersion n (.digits n))
      else .error .invalidType
    | .wifi =>
      if c = '\x7b' then
        let r := { r with seen := { r.seen with wifi := true } }
        .ok (r.push (.object .wifi true))
      else .error .invalidType
    | _ =>
      if c = 't' then .ok (r.setFlag f true (.word 'r' ['u', 'e']))
      else if c = 'f' then .ok (r.setFlag f false (.word 'a' ['l', 's', 'e']))
      else .error .invalidType

/-- The first character of a value that is skipped. -/
def skippedValue (r : Reader) (c : Char) : Except ReadError Reader :=
  if c = '"' then .ok (r.expect (.string false))
  else if c = '[' then .ok (r.push (.list true))
  else if c = '\x7b' then .ok (r.push (.object .unknown true))
  else if c = ',' || c = '\x7d' || c = ']' then .error .valueExpected
  else .ok (r.expect .delimiter)

def keyStart (r : Reader) (c : Char) : Except ReadError Reader :=
  if c = '"' then .ok (r.expect (.key [] false)) else .error .keyNotString

/-- The innermost object or list has its first member or element. -/
def begun (r : Reader) : Reader :=
  match r.frames with
  | [] => r
  | .object scope _ :: outer => { r with frames := .object scope false :: outer }
  | .list _ :: outer => { r with frames := .list false :: outer }

/-- A character where a member or element may end or begin. -/
def between (r : Reader) (c : Char) : Except ReadError Reader :=
  match r.frames with
  | [] => .error .trailingCharacters
  | .object _ fresh :: _ =>
    if c = '\x7d' then .ok r.pop
    else if fresh then r.begun.keyStart c
    else if c = ',' then .ok (r.expect .afterComma)
    else .error .objectEndExpected
  | .list fresh :: _ =>
    if c = ']' then .ok r.pop
    else if c = ',' then .ok (r.expect .afterComma)
    else if fresh then r.begun.skippedValue c
    else .error .listEndExpected

def pastComma (r : Reader) (c : Char) : Except ReadError Reader :=
  match r.frames with
  | [] => .error .trailingCharacters
  | .object _ _ :: _ => if c = '\x7d' then .error .trailingComma else r.keyStart c
  | .list _ :: _ => if c = ']' then .error .trailingComma else r.skippedValue c

/-- The scope of the innermost object. -/
def scope (r : Reader) : Scope :=
  match r.frames with
  | .object scope _ :: _ => scope
  | _ => .unknown

/-- The end of a key. A known key must not have occurred before. -/
def endKey (r : Reader) (key : String) : Except ReadError Reader :=
  match r.scope.field? key with
  | none => .ok (r.expect (.colon none))
  | some f =>
    if f ∈ r.seen.keys then .error .repeatedKey
    else .ok { r with seen := { r.seen with keys := f :: r.seen.keys }, expecting := .colon (some f) }

def digit (r : Reader) (n : Nat) (c : Char) : Except ReadError Reader :=
  let n := n * 10 + (c.toNat - '0'.toNat)
  if n ≤ largestVersion then .ok (r.setVersion n (.digits n)) else .error .invalidNumber

/-- The rest of a word, where a word without letters has ended. -/
def spell (r : Reader) : List Char → Reader
  | [] => r.afterValue
  | letter :: rest => r.expect (.word letter rest)

/-- What a character leads to where space may stand. -/
def stepSpaced (r : Reader) (c : Char) : Except ReadError Reader :=
  match r.expecting with
  | .opening => if c = '\x7b' then .ok (r.push (.object .manifest true)) else .error .invalidType
  | .next => r.between c
  | .afterComma => r.pastComma c
  | .colon field => if c = ':' then .ok (r.expect (.value field)) else .error .colonExpected
  | .value (some f) => r.knownValue f c
  | .value none => r.skippedValue c
  | _ => .error .trailingCharacters

/-- What a character leads to. -/
def step (r : Reader) (c : Char) : Except ReadError Reader :=
  match r.expecting with
  | .key read escaped =>
    if c = '"' && !escaped then r.endKey (String.ofList read.reverse)
    else .ok (r.expect (.key (c :: read) (c = '\\' && !escaped)))
  | .string escaped =>
    if c = '"' && !escaped then .ok r.afterValue
    else .ok (r.expect (.string (c = '\\' && !escaped)))
  | .word letter rest => if c = letter then .ok (r.spell rest) else .error .wordExpected
  | .digits n =>
    if c.isDigit then r.digit n c
    else if isSpace c then .ok r.afterValue
    else r.afterValue.between c
  | .delimiter =>
    if c = ',' || c = '\x7d' || c = ']' then r.afterValue.between c else .ok r
  | _ => if isSpace c then .ok r else r.stepSpaced c

/-- What the end of the text means. -/
def atEnd (r : Reader) : Except ReadError Seen :=
  match r.expecting with
  | .opening | .afterComma | .value _ => .error .valueCutOff
  | .next | .digits _ =>
    match r.frames with
    | .list _ :: _ => .error .listCutOff
    | _ => .error .objectCutOff
  | .key .. | .string _ | .delimiter => .error .stringCutOff
  | .colon _ => .error .objectCutOff
  | .word .. => .error .wordExpected
  | .nothing => .ok r.seen

def read (text : List Char) : Except ReadError Seen := do (← text.foldlM step initial).atEnd

/-- A text is read one part after another. -/
theorem read_append (first second : List Char) :
    read (first ++ second) = (do (← second.foldlM step (← first.foldlM step initial)).atEnd) := by
  simp only [read, List.foldlM_append, bind_assoc]

end Reader
end ConferenceBadge.Manifest
