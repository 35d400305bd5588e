import SpanWire.Cli.Log
import SpanWire.Pattern
import SpanWire.Text.Alphanumeric
import SpanWire.Text.Blank
import SpanWire.Text.Decimal
import SpanWire.Text.Utf8

/-!
The directives of a log filter. One reads `target[span{field=pattern}]=level`, where much can be
left out, or is a level alone.
-/
namespace SpanWire.Cli.Log

/-- Which records of a target a directive is about. -/
inductive Scope
  | all
  /-- The records that have a field. -/
  | field (name : String)
  /-- The records of a task that has a name, or a field with a value. No task is ever entered. -/
  | task
  deriving DecidableEq, Repr

/-- The highest rank shown of the records with the scope and a target that starts with the text. -/
structure Directive where
  target : Option String
  scope : Scope
  rank : Nat
  deriving DecidableEq, Repr

/-- Why a directive is not understood. -/
inductive Misread
  | form
  | level
  | value (why : Pattern.Flaw)
  deriving DecidableEq, Repr

def Misread.message : Misread → String
  | form => "invalid filter directive"
  | level => "error parsing level filter: expected one of " ++
      "\"off\", \"error\", \"warn\", \"info\", \"debug\", \"trace\", or a number 0-5"
  | value .unreadable => "invalid field filter: error building NFA"
  | value .needsWords => "invalid field filter: unsupported regex feature for DFAs: " ++
      "cannot build DFAs for regexes with Unicode word boundaries; switch to ASCII word " ++
      "boundaries, or heuristically enable Unicode word boundaries or use a different regex engine"

namespace Directive

/-- The names of the ranks, from the lowest. -/
def rankNames : List String :=
  "OFF" :: [Level.error, .warn, .info, .debug, .trace].map Level.name

/-- A rank by its name in any case, or by its number. -/
def readRank? (text : List Char) : Option Nat :=
  match Text.readUInt64? text with
  | some n => if n.toNat < rankNames.length then some n.toNat else none
  | none => rankNames.idxOf? (String.ofList text).toUpper

/-- A byte to look at, and the one that is taken in its place. -/
abbrev Cell := UInt8 × UInt8

def Cell.shows (c : Cell) (mark : Char) : Bool :=
  c.1 = mark.toUInt8

/-- What cells give, unless it starts or ends within a character. -/
def taken (cells : List Cell) : Except Misread String :=
  match Text.ofUtf8? (cells.map (·.2)) with
  | some text => .ok text
  | none => .error .form

/-- Splits before the first cell that shows one of some marks. -/
def upTo (marks : List Char) (cells : List Cell) : List Cell × List Cell :=
  cells.span fun c => !marks.any c.shows

/-- A value is a number or a pattern. -/
def valueFlaw? (text : List Char) : Option Pattern.Flaw :=
  if Text.isNumber text then none else Pattern.flaw? text

/-- The name of a field, and perhaps an equals sign with a value, which a second one ends. -/
def readField (text : String) : Except Misread Scope :=
  if text.isEmpty then .error .form
  else
    match text.toList.dropWhile (· ≠ '=') with
    | [] => .ok (.field text)
    | _ :: value =>
      match valueFlaw? (value.takeWhile (· ≠ '=')) with
      | none => .ok .task
      | some why => .error (.value why)

/-- Reads what stands behind an opening bracket, up to the closing one. -/
def readScope (cells : List Cell) : Except Misread (Scope × List Cell) := do
  let (name, rest) := upTo [']', '{'] cells
  match rest with
  | [] => .error .form
  | stop :: rest =>
    if stop.shows ']' then return (.task, rest)
    else
      let (field, rest) := upTo ['}'] rest
      if rest.isEmpty then .error .form
      else
        let scope ← readField (← taken field)
        match rest.tail with
        | [] => .error .form
        | stop :: rest =>
          if stop.shows ']' then return (if name.isEmpty then scope else .task, rest)
          else .error .form

/-- Reads an equals sign with a level. Without either, everything is shown. -/
def readLevel (tail : List UInt8) (cells : List Cell) : Except Misread Nat := do
  match cells with
  | [] => return Level.trace.rank
  | mark :: rest =>
    if mark.shows '=' then
      let text ← taken (rest ++ tail.map fun b => (b, b))
      if text.isEmpty then return Level.trace.rank
      else
        match readRank? text.toList with
        | some rank => return rank
        | none => .error .level
    else .error .form

def startsDirective (c : Char) : Bool :=
  ['[', '-', ':', '_'].contains c || Text.isAlphanumeric c

/-- A directive is looked at without the blanks around it. Its parts are taken from the whole text
at the same places, counted in bytes from the start, and the last part up to the end. -/
def read (text : String) : Except Misread Directive := do
  let looked := Text.trim text.toList
  if ¬ looked.head?.any startsDirective then .error .form
  else
    let shown := Text.utf8 (String.ofList looked)
    let tail := (Text.utf8 text).drop shown.length
    let (target, rest) := upTo ['=', '['] (shown.zip (Text.utf8 text))
    match rest with
    | [] =>
      match readRank? text.toList with
      | some rank => return ⟨none, .all, rank⟩
      | none => return ⟨some text, .all, Level.trace.rank⟩
    | mark :: behind =>
      let target ← if target.isEmpty then pure none else some <$> taken target
      let (scope, rest) ← if mark.shows '[' then readScope behind else pure (.all, rest)
      let rank ← readLevel tail rest
      return ⟨target, scope, rank⟩

end Directive

end SpanWire.Cli.Log
