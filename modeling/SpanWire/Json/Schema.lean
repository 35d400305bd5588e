import SpanWire.Json.Reader

/-!
Records read from JSON: an object with the fields as members, or an array of the fields in their
order. A schema says how each field is read and what it is when absent.
-/
namespace SpanWire.Json

structure Schema where
  name : String
  Field : Type
  decEq : DecidableEq Field
  /-- The fields in declared order. -/
  fields : List Field
  complete : ∀ f, f ∈ fields
  key : Field → String
  Value : Field → Type
  read : (f : Field) → Reader (Value f)
  /-- The value of a field that is not given; a required field has none. -/
  absent : (f : Field) → Option (Value f)
  /-- Whether members with other keys are refused. -/
  closed : Bool

namespace Schema

/-- A value for every field. -/
abbrev Record (σ : Schema) := (f : σ.Field) → σ.Value f

/-- The fields read so far. -/
abbrev Partial (σ : Schema) := (f : σ.Field) → Option (σ.Value f)

variable {σ : Schema}

def Partial.empty : σ.Partial :=
  fun _ => none

def Partial.set (p : σ.Partial) (f : σ.Field) (v : σ.Value f) : σ.Partial := fun g =>
  match σ.decEq f g with
  | isTrue h => some (h ▸ v)
  | isFalse _ => p g

variable (σ)

def fieldOf? (key : String) : Option σ.Field :=
  σ.fields.find? (σ.key · = key)

/-- Reads members from the left. A repeated key is refused before its value is looked at. -/
def readMembers (p : σ.Partial) : List (Option Token × Draft) → Except Problem σ.Partial
  | [] => .ok p
  | (k, d) :: members => do
    let key ← readKey k
    match σ.fieldOf? key with
    | some f =>
      if (p f).isSome then .error (.data (.duplicateField key))
      else readMembers (p.set f (← σ.read f d)) members
    | none =>
      if σ.closed then .error (.data (.unknownField key (σ.fields.map σ.key)))
      else do
        skip d
        readMembers p members

/-- Reads items from the left, one a field. Nothing may follow the last field. -/
def readItems (p : σ.Partial) (index : Nat) (cut : Option Fault) :
    List σ.Field → List Draft → Except Problem σ.Partial
  | [], [] => do
    failOn cut
    return p
  | [], _ :: _ => .error (.grammar .malformed)
  | f :: fs, d :: ds => do
    let v ← σ.read f d
    readItems (p.set f v) (index + 1) cut fs ds
  | f :: fs, [] => do
    failOn cut
    match σ.absent f with
    | none => .error (.data (.tooShort index σ.name σ.fields.length))
    | some _ => readItems p (index + 1) cut fs []

def isMissing (p : σ.Partial) (f : σ.Field) : Bool :=
  ((p f).or (σ.absent f)).isNone

/-- Fills in what is absent, unless a required field is. -/
def fill (p : σ.Partial) : Except Problem σ.Record :=
  match h : σ.fields.find? (σ.isMissing p) with
  | some f => .error (.data (.missingField (σ.key f)))
  | none => .ok fun f => ((p f).or (σ.absent f)).get <|
      Option.isSome_iff_ne_none.2 fun hn =>
        List.find?_eq_none.1 h f (σ.complete f) (by simp [isMissing, hn])

def readFields : Reader σ.Record
  | .object members cut => do
    let p ← σ.readMembers .empty members
    failOn cut
    σ.fill p
  | .array items cut => do
    let p ← σ.readItems .empty 0 cut σ.fields items
    σ.fill p
  | d => wrongType (.record σ.name) d.found

def readRecord : Reader σ.Record := fun d =>
  (σ.readFields d).mapError Problem.within

end Schema

end SpanWire.Json
