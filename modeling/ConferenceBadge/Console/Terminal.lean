import ConferenceBadge.Console.Launch

/-!
The emulator at a terminal: a prompt for each line, and what is written in answer. Answers go to the
output, log lines in their colours to the error output.
-/
namespace ConferenceBadge.Console.Terminal

/-- What reading a line from the terminal gives. -/
inductive Typed where
  | line (text : String)
  /-- bytes that are no text -/
  | garbled
  | endOfInput
deriving DecidableEq

/-- Bytes cut after each line end. -/
def cutLines : List UInt8 → List (List UInt8)
  | [] => []
  | b :: rest =>
    if b = 10 then [b] :: cutLines rest
    else
      match cutLines rest with
      | [] => [[b]]
      | line :: others => (b :: line) :: others

/-- Cutting loses nothing. -/
theorem flatten_cutLines (bytes : List UInt8) : (cutLines bytes).flatten = bytes := by
  induction bytes with
  | nil => rfl
  | cons b rest ih =>
    rw [cutLines]
    split
    · simp only [List.flatten_cons, ih, List.singleton_append]
    · split
      · next none => simp only [none, List.flatten_nil] at ih; simp [← ih]
      · next line others cut =>
        rw [cut, List.flatten_cons] at ih
        simp only [List.flatten_cons, List.cons_append, ih]

/-- What the bytes of a line, its end included, amount to. -/
def Typed.ofBytes (bytes : List UInt8) : Typed :=
  match String.fromUTF8? bytes.toByteArray with
  | some text => line text
  | none => garbled

/-- All that is typed on an input that ends. -/
def typedLines (bytes : List UInt8) : List Typed := (cutLines bytes).map Typed.ofBytes ++ [.endOfInput]

def greeting : String := "Badge emulator ready. Type `help` for commands or `exit` to quit.\n"

/-- What the terminal shows before each line. -/
def prompt : String := "> "

/-- Log lines as the error output shows them. -/
def errorLines (level : Log.Level) (lines : List Log.Line) : String :=
  String.join ((lines.filter (Log.Filter.keeps (some level))).map fun l => l.coloured ++ "\n")

/-- What answers a line: the session after it, what is written, and the exit code if this is the
end. -/
structure Turn where
  session : Session
  out : String
  err : String
  exit : Option Nat

def asksToLeave (line : String) : Bool := Help.lowered line = "exit" || Help.lowered line = "quit"

/-- The error output for a line that is no text. -/
def garbledMessage : String :=
  "Error: Error \x7b kind: InvalidData, message: \"stream did not contain valid UTF-8\" \x7d\n"

def respond (session : Session) (around : Surroundings) (level : Log.Level) (typed : Typed) : Turn :=
  match typed with
  | .endOfInput => ⟨session, "\n", "", some 0⟩
  | .garbled => ⟨session, "", garbledMessage, some 1⟩
  | .line text =>
    let text := Text.trim text
    if text = "" then ⟨session, "", "", none⟩
    else if asksToLeave text then ⟨session, "Session closed.\n", "", some 0⟩
    else
      let handled := session.handle around text
      ⟨handled.state, String.join (handled.answer.map (· ++ "\n")), errorLines level handled.log, none⟩

/-- How a run ended, all that it wrote, and the files that it left. -/
structure Ending where
  code : Nat
  out : String
  err : String
  files : FileSystem

/-- Answers lines until one is the end. -/
def converse (around : Surroundings) (level : Log.Level) : List Typed → Session → Ending → Ending
  | [], session, written => { written with files := session.files around }
  | typed :: rest, session, written =>
    let turn := respond session around level typed
    let written := { written with out := written.out ++ prompt ++ turn.out, err := written.err ++ turn.err }
    match turn.exit with
    | some code => { written with code, files := turn.session.files around }
    | none => converse around level rest turn.session written

/-- The error output for arguments that are refused. -/
def refusal (e : UsageError) : String := e.message ++ "\n" ++ usageLine ++ "\n"

/-- The error output for a transcript that cannot be written. -/
def transcriptError (e : FileError) : String := "Error: " ++ e.message ++ "\n"

/-- A whole run on arguments and an input that ends, among files, at one moment on the host. -/
def run (arguments : List String) (input : List UInt8) (files : FileSystem) (now : Int) : Ending :=
  match Launch.ofArguments arguments with
  | .error e => ⟨2, "", refusal e, files⟩
  | .ok launch =>
    match launch.options.openTranscript.run files with
    | .error e files => ⟨1, "", transcriptError e, files⟩
    | .ok transcript files =>
      let around : Surroundings := { now, files, filter := some launch.level }
      let started := Session.start launch.options transcript around
      let opening : Ending := ⟨0, greeting, errorLines launch.level started.log, files⟩
      converse around launch.level (typedLines input) started.state opening

end ConferenceBadge.Console.Terminal
