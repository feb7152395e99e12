import ConferenceBadge.Duration
import ConferenceBadge.FileSystem
import ConferenceBadge.Text.Column

/-!
Transcripts of a console session: a head, then a line for everything that was typed, answered or
logged, with the simulated time at which it was.
-/
namespace ConferenceBadge.Console

/-- Who a line comes from. -/
inductive Speaker where
  | host | emulator | log
deriving DecidableEq

def Speaker.mark : Speaker → String
  | host => "HOST>"
  | emulator => "EMU <"
  | log => "LOG  "

/-- The lines written so far, and where the file is that they go to. -/
structure Transcript where
  place : Place
  lines : Array String

namespace Transcript

/-- A transcript with only its head; `root` is where the apps come from. -/
def start (place : Place) (root : Path) : Transcript :=
  { place
    lines := #["# Badge emulator transcript (apps from " ++ root.text ++ ")",
      "# Timestamps are simulated milliseconds since power-on", ""] }

def line (time : Duration) (speaker : Speaker) (text : String) : String :=
  "[+" ++ Text.atRight 6 (toString time.millis) ' ' ++ " ms] " ++ speaker.mark ++ " " ++ text

def append (t : Transcript) (time : Duration) (speaker : Speaker) (texts : List String) : Transcript :=
  { t with lines := t.lines ++ texts.map (line time speaker) }

def text (t : Transcript) : String := t.lines.foldl (fun s l => s ++ l ++ "\n") ""

/-- The files with the transcript in its own. -/
def save (t : Transcript) (files : FileSystem) : FileSystem := files.write t.place t.text.toUTF8

end Transcript
end ConferenceBadge.Console
