/-!
JSON texts as trees. A tree says how a text is made by the grammar of JSON: what its values are, and
where blanks stand between their parts. `text` is what is written. A tree cannot be ill-formed, so the
well-formed texts are those of trees.
-/
namespace ConferenceBadge.Json

/-- A character that may stand between the parts of a text. -/
inductive Blank where
  | space | tab | lineFeed | carriageReturn
deriving DecidableEq

abbrev Blanks : Type := List Blank

abbrev Digit : Type := Fin 10

/-- A digit of a character's code. -/
abbrev Hex : Type := { c : Char // c ∈ "0123456789abcdefABCDEF".toList }

/-- A character of a string, as it is written. -/
inductive Letter where
  | plain (c : Char) (allowed : ' ' ≤ c ∧ c ≠ '"' ∧ c ≠ '\\')
  /-- one character after a backslash -/
  | escape (c : Char) (allowed : c ∈ ['"', '\\', '/', 'b', 'f', 'n', 'r', 't'])
  /-- the character with this code -/
  | code (first second third fourth : Hex)

/-- The part of a number before the point: no zero stands before another digit. -/
inductive Whole where
  | zero
  /-- the first digit is one more than `first` -/
  | positive (first : Fin 9) (rest : List Digit)

/-- Digits after a point or in an exponent: at least one. -/
structure Digits where
  first : Digit
  rest : List Digit

inductive Sign where
  | unsigned | plus | minus

structure Exponent where
  capital : Bool
  sign : Sign
  digits : Digits

structure Number where
  negative : Bool
  whole : Whole
  fraction : Option Digits
  exponent : Option Exponent

mutual

inductive Value where
  | null
  | flag (b : Bool)
  | number (n : Number)
  | string (letters : List Letter)
  | list (items : Items)
  | object (members : Members)

/-- The elements of a list. -/
inductive Items where
  | close (blanks : Blanks)
  | item (before : Blanks) (value : Value) (after : Blanks) (rest : Items)

/-- The members of an object. -/
inductive Members where
  | close (blanks : Blanks)
  | member (before : Blanks) (key : List Letter) (beforeColon afterColon : Blanks) (value : Value) (after : Blanks)
      (rest : Members)

end

/-- A text that is an object, with blanks around it. -/
structure ObjectText where
  before : Blanks
  members : Members
  after : Blanks

def Blank.char : Blank → Char
  | space => ' '
  | tab => '\t'
  | lineFeed => '\n'
  | carriageReturn => '\r'

def Blanks.text (blanks : Blanks) : List Char := blanks.map Blank.char

def Digit.char (d : Digit) : Char := Char.ofNat ('0'.toNat + d)

namespace Letter

def text : Letter → List Char
  | plain c _ => [c]
  | escape c _ => ['\\', c]
  | code first second third fourth => ['\\', 'u', first, second, third, fourth]

/-- What is written between the quotes of a string. -/
def raw (letters : List Letter) : List Char := letters.flatMap text

end Letter

def Whole.text : Whole → List Char
  | zero => ['0']
  | positive first rest => Digit.char first.succ :: rest.map Digit.char

/-- The digits' number, `n` being that of the digits before them. -/
def Digit.number (n : Nat) (digits : List Digit) : Nat := digits.foldl (fun n d => n * 10 + d.val) n

def Whole.number : Whole → Nat
  | zero => 0
  | positive first rest => Digit.number (first + 1) rest

def Digits.text (ds : Digits) : List Char := ds.first.char :: ds.rest.map Digit.char

def Sign.text : Sign → List Char
  | unsigned => []
  | plus => ['+']
  | minus => ['-']

def Exponent.text (e : Exponent) : List Char := (if e.capital then 'E' else 'e') :: e.sign.text ++ e.digits.text

namespace Number

/-- What is written after the whole part. -/
def tail (n : Number) : List Char :=
  n.fraction.elim [] (fun digits => '.' :: digits.text) ++ n.exponent.elim [] Exponent.text

def text (n : Number) : List Char := (if n.negative then ['-'] else []) ++ n.whole.text ++ n.tail

/-- The number that is written without sign, fraction and exponent. -/
def plain? (n : Number) : Option Nat :=
  if n.negative || n.fraction.isSome || n.exponent.isSome then none else some n.whole.number

end Number

mutual

def Value.text : Value → List Char
  | .null => ['n', 'u', 'l', 'l']
  | .flag true => ['t', 'r', 'u', 'e']
  | .flag false => ['f', 'a', 'l', 's', 'e']
  | .number n => n.text
  | .string letters => '"' :: (Letter.raw letters ++ ['"'])
  | .list items => '[' :: (items.text true ++ [']'])
  | .object members => '\x7b' :: (members.text true ++ ['\x7d'])

/-- Elements, with a comma before each but the first of the list. -/
def Items.text (first : Bool) : Items → List Char
  | .close blanks => blanks.text
  | .item before value after rest =>
    (if first then [] else [',']) ++ (before.text ++ (value.text ++ (after.text ++ rest.text false)))

/-- Members, with a comma before each but the first of the object. -/
def Members.text (first : Bool) : Members → List Char
  | .close blanks => blanks.text
  | .member before key beforeColon afterColon value after rest =>
    (if first then [] else [',']) ++ (before.text ++ ('"' :: (Letter.raw key ++ ('"' :: (beforeColon.text ++
      (':' :: (afterColon.text ++ (value.text ++ (after.text ++ rest.text false)))))))))

end

/-- What is written. -/
def ObjectText.text (t : ObjectText) : String :=
  String.ofList (t.before.text ++ ('\x7b' :: (t.members.text true ++ ('\x7d' :: t.after.text))))

end ConferenceBadge.Json
