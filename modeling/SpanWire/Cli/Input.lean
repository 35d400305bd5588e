import SpanWire.Span.Json

/-!
The spans a text gives: a list of spans, or one span. The whole value is judged as JSON before it
is looked at as spans, so that here, unlike elsewhere, parts of no interest have to be right.
-/
namespace SpanWire.Json

def Token.isSound : Token → Bool
  | literal _ torn => torn.isNone
  | number (.ok n) => n.value.toBool
  | text q => q.value.toBool
  | _ => false

def isSoundToken (t : Option Token) : Bool :=
  t.any Token.isSound

/-- Whether a value is complete, has sound tokens only and nests no deeper than allowed. -/
def Draft.isSound : Nat → Draft → Bool
  | _, leaf t => isSoundToken t
  | 0, _ => false
  | depth + 1, array items cut => cut.isNone && items.all (isSound depth)
  | depth + 1, object members cut =>
    cut.isNone && members.all fun m => isSoundToken m.1 && isSound depth m.2

end SpanWire.Json

namespace SpanWire.Cli

open Json

inductive InputError
  | malformed
  | mismatch
  deriving DecidableEq, Repr

def InputError.message : InputError → String
  | .malformed => "<json syntax error>"
  | .mismatch => "data did not match any variant of untagged enum SpansJson"

def maxDepth : Nat := 127

/-- A list of spans is tried first, as an array may also be one span. -/
def spansOfDraft (d : Draft) : Option (List Span) :=
  match readList Span.ofJson d with
  | .ok spans => some spans
  | .error _ =>
    match Span.ofJson d with
    | .ok s => some [s]
    | .error _ => none

/-- What follows the value counts only if the value gives spans. -/
def readSpans (text : String) : Except InputError (List Span) :=
  let doc := Document.ofText text
  if !doc.draft.isSound maxDepth then .error .malformed
  else
    match spansOfDraft doc.draft with
    | none => .error .mismatch
    | some spans => if doc.trailing then .error .malformed else .ok spans

end SpanWire.Cli
