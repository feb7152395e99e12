import ConferenceBadge.Console.Terminal
import Std.Time.DateTime.Timestamp

/-!
The emulator's command line: the real files, the real clock and a real terminal around a session.
-/
namespace ConferenceBadge.Main

open Console

/-- A file or a folder, so many levels deep. Of a folder only what some path names is of interest, of
`lib` all; of a file only whether it is there, unless it is a manifest. -/
def readEntry (named : List String) : Nat → IO.FS.DirEntry → IO (ByteArray × FileTree)
  | 0, entry => return (entry.fileName.toUTF8, .emptyFolder)
  | depth + 1, entry => do
    let name := entry.fileName.toUTF8
    try
      if ← entry.path.isDir then
        let all := entry.fileName = "lib"
        let inside := (← entry.path.readDir).toList.filter fun e => all || named.contains e.fileName
        return (name, .folder (← inside.mapM (readEntry named depth)))
      else if entry.fileName = AppStore.manifestName then
        return (name, .file (← IO.FS.readBinFile entry.path))
      else return (name, .file .empty)
    catch _ => return (name, .emptyFolder)

/-- The files that the paths of a launch can lead to. -/
def readFiles (options : Options) : IO FileSystem := do
  let current ← IO.currentDir
  let here := current.components.filter (· ≠ "")
  let named := here ++ options.root.parts ++ options.transcript.elim [] Path.parts ++
    ["lib", AppStore.manifestName]
  let entries := (← (current / "/").readDir).toList.filter fun e => named.contains e.fileName
  let tops ← entries.mapM (readEntry named named.length)
  return { top := .folder tops, here := here.map String.toUTF8 }

/-- What a session finds around it at this moment. -/
def look (launch : Launch) : IO Surroundings := do
  let time ← Std.Time.Timestamp.now
  let now := time.toSecondsSinceUnixEpoch.val
  return { now, files := ← readFiles launch.options, filter := some launch.level }

/-- One line of bytes from the input, its end included. -/
partial def readBytes (input : IO.FS.Stream) (line : ByteArray) : IO ByteArray := do
  let next ← input.read 1
  if next.isEmpty then return line
  let line := line ++ next
  if next[0]! = 10 then return line
  readBytes input line

def readTyped (input : IO.FS.Stream) : IO Terminal.Typed := do
  let bytes ← readBytes input .empty
  if bytes.isEmpty then return .endOfInput
  return .ofBytes bytes.toList

def saveTranscript (options : Options) (transcript : Option Transcript) : IO Unit := do
  match options.transcript, transcript with
  | some path, some transcript =>
    let file := (← IO.currentDir) / path.text
    if let some folder := file.parent then IO.FS.createDirAll folder
    IO.FS.writeFile file transcript.text
  | _, _ => return ()

/-- Answers line after line until the end. -/
partial def converse (launch : Launch) (session : Session) : IO UInt32 := do
  let output ← IO.getStdout
  output.putStr Terminal.prompt
  output.flush
  let typed ← readTyped (← IO.getStdin)
  let turn := Terminal.respond session (← look launch) launch.level typed
  IO.eprint turn.err
  saveTranscript launch.options turn.session.transcript
  output.putStr turn.out
  output.flush
  match turn.exit with
  | some code => return code.toUInt32
  | none => converse launch turn.session

/-- Starts a session and answers its console. -/
def start (launch : Launch) : IO UInt32 := do
  match launch.options.openTranscript.run (← readFiles launch.options) with
  | .error e _ =>
    IO.eprint (Terminal.transcriptError e)
    return 1
  | .ok transcript _ =>
    saveTranscript launch.options transcript
    let started := Session.start launch.options transcript (← look launch)
    saveTranscript launch.options started.state.transcript
    IO.eprint (Terminal.errorLines launch.level started.log)
    IO.print Terminal.greeting
    converse launch started.state

end ConferenceBadge.Main

open ConferenceBadge ConferenceBadge.Console in
/-- Runs the emulator with the arguments of its command line. -/
def main (arguments : List String) : IO UInt32 := do
  match Launch.ofArguments arguments with
  | .error e =>
    IO.eprint (Terminal.refusal e)
    return 2
  | .ok launch =>
    try ConferenceBadge.Main.start launch
    catch e =>
      IO.eprint s!"Error: {e}\n"
      return 1
