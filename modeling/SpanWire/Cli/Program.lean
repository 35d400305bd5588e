import SpanWire.Cli.Input
import SpanWire.Cli.Log.Filter
import SpanWire.Cli.Manual
import SpanWire.Cli.System
import SpanWire.Wire.Codec

/-!
The program: it reads spans from a file or from standard input and writes their encoding, or
prints their sizes. Nothing is written before all input has been read and understood.
-/
namespace SpanWire.Cli

open Wire (Codec Settings Warning)

/-- Why a run fails. -/
inductive Failure
  | cannotOpen (path : String) (why : SystemError)
  | cannotRead (path : String) (why : SystemError)
  | fileNotText (path : String)
  | stdinNotText
  | badInput (why : InputError)
  | cannotWrite (path : String) (why : SystemError)
  deriving DecidableEq, Repr

namespace Failure

def notText : String := "stream did not contain valid UTF-8"

/-- What failed, and why. -/
def parts : Failure → String × String
  | cannotOpen path why => (s!"failed to open {path}", why.message)
  | cannotRead path why => (s!"failed to read {path}", why.message)
  | fileNotText path => (s!"failed to read {path}", notText)
  | stdinNotText => ("failed to read stdin", notText)
  | badInput why => ("invalid span json", why.message)
  | cannotWrite path why => (s!"failed to write {path}", why.message)

def message (f : Failure) : String :=
  s!"Error: {f.parts.1}\n\nCaused by:\n    {f.parts.2}\n"

def ofReadError (path : String) : Files.ReadError → Failure
  | .atOpen why => cannotOpen path why
  | .atRead why => cannotRead path why

end Failure

namespace Command

def input : Command → Option String
  | encode input _ _ => input
  | size input => input

def output : Command → Option String
  | encode _ output _ => output
  | size _ => none

end Command

/-- What a run that understood its input has to say and to write. -/
structure Reply where
  log : List Log.Record
  output : ByteArray

def warningTarget : String := "hindsight_proto3::log"

def programTarget : String := "hindsight_encode"

def warningRecord (w : Warning) : Log.Record :=
  ⟨.warn, warningTarget, w.message⟩

def hexLine (bytes : Array UInt8) : ByteArray :=
  (Hex.spell (Hex.ofBytes bytes.toList) ++ "\n").toByteArray

def sizeLine (s : Span) (size : Nat) : String :=
  s!"{s.traceId}/{s.id}\t{size}\n"

namespace Arguments

/-- The codec listens if its warnings would be asked for. -/
def codec (a : Arguments) (filter : Log.Filter) : Codec :=
  ⟨a.settings, filter.listens .warn warningTarget⟩

def reply (a : Arguments) (filter : Log.Filter) (spans : List Span) : Reply :=
  match a.command with
  | .encode _ _ hex =>
    let encoded := (a.codec filter).encodeList spans
    let bytes := encoded.value
    let summary : Log.Record :=
      ⟨.debug, programTarget, s!"encoded {spans.length} spans into {bytes.size} bytes"⟩
    ⟨filter.keep (encoded.warnings.map warningRecord ++ [summary]),
      if hex then hexLine bytes else ⟨bytes⟩⟩
  | .size _ =>
    let sizes := spans.map (a.codec filter).size
    let lines := List.zipWith (fun s r => sizeLine s r.value) spans sizes
    ⟨filter.keep ((sizes.flatMap (·.warnings)).map warningRecord),
      (String.join lines).toByteArray⟩

/-- The reply to an input that could be read. -/
def replyTo (a : Arguments) (filter : Log.Filter) (content : ByteArray) :
    Except Failure Reply :=
  match String.fromUTF8? content with
  | none => .error <| match a.command.input with
    | some path => .fileNotText path
    | none => .stdinNotText
  | some text =>
    match readSpans text with
    | .error why => .error (.badInput why)
    | .ok spans => .ok (a.reply filter spans)

end Arguments

def logText (records : List Log.Record) : String :=
  String.join (records.map Log.Record.line)

def logVariable : String := "RUST_LOG"

/-- The content of the file that is to be read, or of standard input. -/
def Surroundings.source (w : Surroundings) : Option String → Except Failure ByteArray
  | none => .ok w.stdin
  | some path => (w.files.read path).mapError (.ofReadError path)

section Execution

variable {m : Type → Type} [Monad m] (sys : System m)

namespace System

def source : Option String → m (Except Failure ByteArray)
  | none => return .ok (← sys.stdin)
  | some path => return (← sys.readFile path).mapError (.ofReadError path)

def fail (failure : Failure) : m Nat := do
  sys.report failure.message
  return 1

/-- Hands over the output, to a file or to standard output. -/
def deliver (output : Option String) (content : ByteArray) : m Nat := do
  match output with
  | none =>
    sys.print content
    return 0
  | some path =>
    match ← sys.writeFile path content with
    | .ok () => return 0
    | .error why => sys.fail (.cannotWrite path why)

/-- Says what is wrong with the setting of the log, and keeps what is right. -/
def openLog : m Log.Filter := do
  let setting ← sys.environment logVariable
  sys.report (Log.complaints setting)
  return Log.Filter.read setting

end System

/-- The run of a command on a system. -/
def Arguments.execute (a : Arguments) (filter : Log.Filter) : m Nat := do
  match (← sys.source a.command.input) >>= a.replyTo filter with
  | .error failure => sys.fail failure
  | .ok reply =>
    sys.report (logText reply.log)
    sys.deliver a.command.output reply.output

/-- Does what the arguments ask for, if they are understood. -/
def serve (manual : Manual) (arguments : List String) (ambient : Option String)
    (filter : Log.Filter) : Option Request → m Nat
  | none => do
    sys.report (manual.misuse arguments)
    return 2
  | some (.help topic) => do
    sys.print (manual.help topic ambient).toByteArray
    return 0
  | some (.run a) => a.execute sys filter

/-- The program on a system. -/
def execute (manual : Manual) (arguments : List String) : m Nat := do
  let filter ← sys.openLog
  let ambient ← sys.environment thresholdVariable
  serve sys manual arguments ambient filter (Request.parse ambient arguments)

end Execution

/-- A run with arguments that were understood. -/
def Arguments.run (a : Arguments) (w : Surroundings) : Outcome :=
  w.after do
    let filter ← System.described.openLog
    a.execute .described filter

/-- A run, if its arguments are understood and ask for one. -/
def run (arguments : List String) (w : Surroundings) : Option Outcome :=
  (Arguments.parse w.environment arguments).map fun a => a.run w

/-- What the program leaves behind, whatever its arguments ask for. -/
def respond (manual : Manual) (arguments : List String) (w : Surroundings) : Outcome :=
  w.after (execute .described manual arguments)

end SpanWire.Cli
