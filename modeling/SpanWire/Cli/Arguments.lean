import SpanWire.Text.Decimal
import SpanWire.Wire.Settings

/-!
The command line: a verb with its switches. One switch may stand before the verb or after it, and
an environment variable may stand in for it. In place of a run, help may be asked for.
-/
namespace SpanWire.Cli

inductive Verb
  | encode
  | size
  deriving DecidableEq, Repr

def Verb.ofName? : String → Option Verb
  | "encode" => some .encode
  | "size" => some .size
  | _ => none

inductive Switch
  | threshold
  | input
  | output
  | hex
  | help
  deriving DecidableEq, Repr

namespace Switch

def longName : Switch → String
  | threshold => "large-field-threshold"
  | input => "input"
  | output => "output"
  | hex => "hex"
  | help => "help"

def shortName? : Switch → Option String
  | input => some "i"
  | output => some "o"
  | help => some "h"
  | threshold | hex => none

def takesValue : Switch → Bool
  | threshold | input | output => true
  | hex | help => false

/-- Whether a text is a value of the switch. The name of a file is not empty. -/
def accepts : Switch → String → Bool
  | threshold, text => (Text.readUInt64? text.toList).isSome
  | input, path | output, path => !path.isEmpty
  | hex, _ | help, _ => true

end Switch

def Verb.switches : Verb → List Switch
  | .encode => [.threshold, .input, .output, .hex, .help]
  | .size => [.threshold, .input, .help]

/-- An argument by its form. -/
inductive Word
  | switch (long : Bool) (name : String) (value : Option String)
  | separator
  | plain
  deriving DecidableEq, Repr

/-- A long switch carries a value behind an equals sign, a short one behind nothing or an equals
sign. A lone hyphen is a plain word. -/
def Word.ofArgument (argument : String) : Word :=
  match argument.toList with
  | ['-', '-'] => .separator
  | '-' :: '-' :: cs =>
    let name := String.ofList (cs.takeWhile (· ≠ '='))
    match cs.dropWhile (· ≠ '=') with
    | [] => .switch true name none
    | _ :: value => .switch true name (some (String.ofList value))
  | ['-', c] => .switch false (String.singleton c) none
  | '-' :: c :: '=' :: value => .switch false (String.singleton c) (some (String.ofList value))
  | '-' :: c :: value => .switch false (String.singleton c) (some (String.ofList value))
  | _ => .plain

def Switch.isNamed (long : Bool) (name : String) (s : Switch) : Bool :=
  if long then s.longName = name else s.shortName? = some name

/-- The switches given, each with its value. -/
abbrev Given := List (Switch × String)

def Given.value? (given : Given) (s : Switch) : Option String :=
  (given.find? (·.1 = s)).map (·.2)

def Given.has (given : Given) (s : Switch) : Bool :=
  given.any (·.1 = s)

/-- Whether no switch is given twice, and each has a value that it accepts. -/
def Given.isSound : Given → Bool
  | [] => true
  | e :: given => !Given.has given e.1 && e.1.accepts e.2 && isSound given

/-- What arguments come to that are read for switches. -/
inductive Reading
  /-- The switches, and the arguments from the first other one on. -/
  | switches (given : Given) (rest : List String)
  /-- Help is asked for before any other argument. -/
  | help
  deriving DecidableEq, Repr

/-- Reads switches up to the first other argument, or up to one that asks for help. A value that
looks like a switch has to be attached. An attached value is judged at once, any other one when the
next switch is met; one that no switch follows is left to whoever uses the switches. -/
def readSwitches (allowed : List Switch) (given : Given) : List String → Option Reading
  | [] => some (.switches given [])
  | argument :: rest =>
    match Word.ofArgument argument with
    | .separator => some (.switches given (argument :: rest))
    | .plain => some (.switches given (argument :: rest))
    | .switch long name value =>
      match allowed.find? (·.isNamed long name) with
      | none => none
      | some s =>
        if !given.isSound then none
        else if s = .help then
          -- What is attached to the short name is not looked at.
          if long && value.isSome then none else some .help
        else if s.takesValue then
          match value with
          | some v =>
            if Given.isSound (given ++ [(s, v)]) then readSwitches allowed (given ++ [(s, v)]) rest
            else none
          | none =>
            match rest with
            | [] => none
            | v :: rest =>
              if Word.ofArgument v = .plain then readSwitches allowed (given ++ [(s, v)]) rest
              else none
        else if value.isSome then none
        else readSwitches allowed (given ++ [(s, "")]) rest

/-- The threshold as one level of the command line has it: given there, or else by the
environment. A text that is no number is refused even where another level decides. -/
def readThreshold (given : Given) (ambient : Option String) : Option (Option UInt64) :=
  match (given.value? .threshold).or ambient with
  | none => some none
  | some text => (Text.readUInt64? text.toList).map some

inductive Command
  | encode (input : Option String) (output : Option String) (hex : Bool)
  | size (input : Option String)
  deriving DecidableEq, Repr

structure Arguments where
  command : Command
  settings : Wire.Settings
  deriving DecidableEq

def thresholdVariable : String := "HINDSIGHT_LARGE_FIELD_THRESHOLD"

/-- The arguments of a run. Behind the verb the threshold counts for more than before it, and on
either side for more than in the environment. -/
def Arguments.ofGiven? (verb : Verb) (outer inner : Given) (ambient : Option String) :
    Option Arguments :=
  if !(outer.isSound && inner.isSound) then none
  else do
    let outerThreshold ← readThreshold outer ambient
    let innerThreshold ← readThreshold inner ambient
    let threshold := if outer.has .threshold ∧ ¬ inner.has .threshold then outerThreshold
      else innerThreshold
    let settings : Wire.Settings := match threshold with
      | none => {}
      | some n => ⟨n⟩
    let command := match verb with
      | .encode => Command.encode (inner.value? .input) (inner.value? .output) (inner.has .hex)
      | .size => Command.size (inner.value? .input)
    return ⟨command, settings⟩

/-- What help is about. -/
inductive Topic
  | program
  | verb (verb : Verb)
  | help
  deriving DecidableEq, Repr

/-- The topic that is named behind the word for help. Switches have no place there. -/
def Topic.ofWords? : List String → Option Topic
  | [] => some .program
  | [name] => if name = "help" then some .help else (Verb.ofName? name).map .verb
  | _ => none

/-- What the arguments ask for. -/
inductive Request
  | run (arguments : Arguments)
  | help (topic : Topic)
  deriving DecidableEq

/-- What is asked for with a verb, given the switches before it and the arguments behind it. -/
def Request.ofVerb? (ambient : Option String) (outer : Given) (verb : Verb)
    (arguments : List String) : Option Request := do
  match ← readSwitches verb.switches [] arguments with
  | .help => some (.help (.verb verb))
  | .switches inner rest =>
    if rest ≠ [] ∧ rest ≠ ["--"] then none
    else (Arguments.ofGiven? verb outer inner ambient).map .run

/-- What the arguments ask for, unless they are not understood. Whoever asks for help gets it though
something is wrong or missing behind that. -/
def Request.parse (ambient : Option String) (arguments : List String) : Option Request := do
  match ← readSwitches [.threshold, .help] [] arguments with
  | .help => some (.help .program)
  | .switches _ [] => none
  | .switches outer (name :: rest) =>
    if name = "help" then (Topic.ofWords? rest).map .help
    else Request.ofVerb? ambient outer (← Verb.ofName? name) rest

/-- The arguments of a run, if they are understood and ask for one. -/
def Arguments.parse (environment : String → Option String) (arguments : List String) :
    Option Arguments :=
  match Request.parse (environment thresholdVariable) arguments with
  | some (.run a) => some a
  | _ => none

end SpanWire.Cli
