import SpanWire.Json.Draft
import SpanWire.Json.Problem

/-!
Reading values from drafts. A reader goes through its draft from the left and gives the first
problem it meets.
-/
namespace SpanWire.Json

abbrev Reader (α : Type) := Draft → Except Problem α

/-- What a value that starts with the token is. Only then is the token itself looked into. -/
def Token.found : Token → Except Fault Found
  | literal .null none => .ok .null
  | literal .true none => .ok (.bool true)
  | literal .false none => .ok (.bool false)
  | literal _ (some why) => .error why
  | number n => do
    match ← (← n).value with
    | .integer i => .ok (.integer i)
    | .float => .ok .float
  | text q => q.value.map .text
  | openArray => .ok .sequence
  | openObject => .ok .map
  | _ => .error .malformed

def Found.ofToken? : Option Token → Except Fault Found
  | none => .error .ended
  | some t => t.found

namespace Draft

/-- An array or object of the wrong type is not looked into. -/
def found : Draft → Except Fault Found
  | leaf t => Found.ofToken? t
  | array .. => .ok .sequence
  | object .. => .ok .map

end Draft

/-- The problem of a value that is not of the type asked for. -/
def wrongType {α : Type} (expected : Expected) (found : Except Fault Found) : Except Problem α :=
  match found with
  | .ok f => .error (.data (.wrongType f expected))
  | .error why => .error (.grammar why)

def orGrammar {α : Type} (r : Except Fault α) : Except Problem α :=
  r.mapError .grammar

def failOn (why : Option Fault) : Except Problem Unit :=
  match why with
  | none => .ok ()
  | some why => .error (.grammar why)

def readText (expected : Expected) : Reader String
  | .leaf (some (.text q)) => orGrammar q.value
  | d => wrongType expected d.found

def readBool : Reader Bool
  | .leaf (some (.literal .true none)) => .ok true
  | .leaf (some (.literal .false none)) => .ok false
  | d => wrongType .boolean d.found

def readUnit : Reader Unit
  | .leaf (some (.literal .null none)) => .ok ()
  | d => wrongType .unit d.found

/-- A natural number below a bound. -/
def readNat (expected : Expected) (bound : Nat) : Reader { n : Nat // n < bound } := fun d =>
  match d.found with
  | .ok (.integer i) =>
    if h : 0 ≤ i ∧ i.toNat < bound then .ok ⟨i.toNat, h.2⟩
    else .error (.data (.outOfRange i expected))
  | found => wrongType expected found

def readUInt64 (expected : Expected) : Reader UInt64 := fun d =>
  (readNat expected UInt64.size d).map fun n => .ofNatLT n.1 n.2

def readUInt16 (expected : Expected) : Reader UInt16 := fun d =>
  (readNat expected UInt16.size d).map fun n => .ofNatLT n.1 n.2

/-- Whatever starts like `null` is read as that. -/
def readOption {α : Type} (read : Reader α) : Reader (Option α)
  | .leaf (some (.literal .null torn)) => (failOn torn).map fun _ => none
  | d => (read d).map some

def readList {α : Type} (read : Reader α) : Reader (List α)
  | .array items cut => do
    let xs ← items.mapM read
    failOn cut
    return xs
  | d => wrongType .sequence d.found

/-- A key has to be a text. -/
def readKey : Option Token → Except Problem String
  | none => .error (.grammar .ended)
  | some (.text q) => orGrammar q.value
  | some _ => .error (.grammar .malformed)

/-- The entries of an object that may have any keys. -/
def readEntries {α : Type} (read : Reader α) : Reader (List (String × α))
  | .object members cut => do
    let entries ← members.mapM fun m => do
      let key ← readKey m.1
      let value ← read m.2
      return (key, value)
    failOn cut
    return entries
  | d => wrongType .map d.found

/-- Skips a value of no interest. -/
def skip : Reader Unit := fun d => failOn d.skipFault

/-- Reads a text that holds one value and nothing else. -/
def readDocument {α : Type} (read : Reader α) (s : String) : Except Problem α := do
  let doc := Document.ofText s
  let a ← read doc.draft
  if doc.trailing then .error (.grammar .malformed) else .ok a

end SpanWire.Json
