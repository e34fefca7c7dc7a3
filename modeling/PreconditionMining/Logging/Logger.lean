/-
# Loggers

A logger keeps the messages up to a level and writes the same lines to the
standard output and to a file, as far as its settings ask for them.  Its first
message tells of its own settings.  Only one logger can be at work at a time.

The level is that of the settings, unless there is a wish for another one from
outside, which may also be that nothing is kept at all.
-/

import PreconditionMining.Data.Codec.Settings
import PreconditionMining.Logging.Level
import PreconditionMining.Text.Timestamp

namespace PreconditionMining

/-- Why a logger does not begin to work. -/
inductive LoggerError
  | invalidLevel (text : String)
  /-- Another logger is at work. -/
  | occupied
deriving DecidableEq

/-- The text of a failure. -/
def LoggerError.message : LoggerError → String
  | .invalidLevel text => "Invalid log level: " ++ text
  | .occupied => "Failed to install tracing subscriber"

/-- Reads a level. -/
def Level.parse (text : String) : Except LoggerError Level :=
  match parse? text with
  | some level => .ok level
  | none => .error (.invalidLevel text)

/-- A message in a log: its level and its fields. -/
structure LogLine where
  level : Level
  fields : List (String × Value)

/-- A message that is a text only. -/
def LogLine.ofText (level : Level) (text : String) : LogLine :=
  ⟨level, [("message", .text text)]⟩

/-- A logger at work.  Where there is no limit, nothing is kept. -/
structure Logger where
  settings : LogSettings
  limit : Option Level

namespace Logger

/-- The limit that is set where the settings ask for a level and there may be a wish for another
one. -/
def limitFor (level : Level) : Option String → Option Level
  | none => some level
  | some wish => if wish = "" then some level else Level.parse? wish

/-- Begins to log, where another logger may be at work. -/
def start (settings : LogSettings) (wish : Option String) (atWork : Option Logger) :
    Except LoggerError Logger := do
  let level ← Level.parse settings.level
  match atWork with
  | some _ => .error .occupied
  | none => .ok { settings, limit := limitFor level wish }

/-- Whether lines are written to a file. -/
def writesFile (l : Logger) : Bool := l.settings.logDir.isSome

/-- The name of a format in the first message. -/
def formatWord : LogFormat → String
  | .json => "Json"
  | .pretty => "Pretty"

/-- The first message. -/
def greeting (l : Logger) : LogLine where
  level := .info
  fields := [("message", .text "logger initialized"), ("level", .text l.settings.level),
    ("format", .text (formatWord l.settings.format)), ("file_output", .bool l.writesFile)]

/-- Whether a message is kept. -/
def keeps (l : Logger) (line : LogLine) : Bool := l.limit.any fun limit => limit.keeps line.level

/-- What is logged when messages come one after another. -/
def lines (l : Logger) (messages : List LogLine) : List LogLine :=
  (l.greeting :: messages).filter l.keeps

/-- The name of a log file that is begun at a point in time. -/
def fileName (rotation : RotationPolicy) (begun : Timestamp) : String :=
  let day := (Date.ofDay (begun.seconds.fdiv 86400)).text
  let hour := Fixed.padded 2 ((begun.seconds.fmod 86400).toNat / 3600)
  "condmine.log" ++ match rotation with
    | .daily => "." ++ day
    | .hourly => "." ++ day ++ "-" ++ hour
    | .never => ""

/-- The file with the lines of a logger that begins at a point in time. -/
def file? (l : Logger) (begun : Timestamp) (messages : List LogLine) :
    Option (String × List LogLine) :=
  if l.writesFile then some (fileName l.settings.rotation begun, l.lines messages) else none

/-- The lines on the standard output. -/
def output (l : Logger) (messages : List LogLine) : List LogLine :=
  if l.settings.enableStdout then l.lines messages else []

end Logger

end PreconditionMining
