import SpanWire.Address
import SpanWire.Id
import SpanWire.Json.Number
import SpanWire.Text.Position
import SpanWire.Text.Quoted

/-! Why a text does not give the value asked for. -/
namespace SpanWire.Json

/-- What stands in a place. The digits of numbers with a fraction are never told. -/
inductive Found
  | null
  | bool (b : Bool)
  | integer (n : Int)
  | float
  | text (s : String)
  | sequence
  | map
  deriving DecidableEq, Repr

def Found.describe : Found → String
  | .null => "null"
  | .bool b => s!"boolean `{b}`"
  | .integer n => s!"integer `{n}`"
  | .float => "floating point"
  | .text s => s!"string {Text.quoted s}"
  | .sequence => "sequence"
  | .map => "map"

/-- What was asked for in a place. -/
inductive Expected
  | string
  | boolean
  | sequence
  | map
  | port
  | number
  | size
  | address (family : AddressFamily)
  | unit
  | record (name : String)
  deriving DecidableEq, Repr

def addressName : AddressFamily → String
  | .v4 => "IPv4 address"
  | .v6 => "IPv6 address"

def Expected.describe : Expected → String
  | .string => "a string"
  | .boolean => "a boolean"
  | .sequence => "a sequence"
  | .map => "a map"
  | .port => "u16"
  | .number => "u64"
  | .size => "usize"
  | .address family => addressName family
  | .unit => "unit"
  | .record name => s!"struct {name}"

/-- A value that JSON allows and the type asked for does not. -/
inductive Mismatch
  | wrongType (found : Found) (expected : Expected)
  | outOfRange (n : Int) (expected : Expected)
  | missingField (key : String)
  | duplicateField (key : String)
  | unknownField (key : String) (known : List String)
  | unknownVariant (name : String) (known : List String)
  | tooShort (length : Nat) (record : String) (fields : Nat)
  /-- A text that is no identifier, within a record or alone. -/
  | badId (e : IdError) (within : Bool)
  | badAddress (family : AddressFamily)
  deriving DecidableEq, Repr

/-- The names that were possible. -/
def describeChoice : List String → String
  | [name] => s!"`{name}`"
  | [one, other] => s!"`{one}` or `{other}`"
  | names => "one of " ++ ", ".intercalate (names.map fun name => s!"`{name}`")

/-- The place of a problem is told behind its message, and is left out here. A message that already
ends in a place, with numbers that can be counted, has that for its own. -/
def messageWithin (message : String) : String :=
  match Text.Placed.ofMessage? message with
  | some p => if p.isCounted then p.text else message
  | none => message

/-- A problem with a whole text has no place but one that its message ends in. Where that is line
zero it is dropped before the place is told, and what then ends in a place loses that too. -/
def messageAlone (message : String) : String :=
  match Text.Placed.ofMessage? message with
  | some p => if p.isNowhere then Text.dropPlace p.text else p.text
  | none => message

def Mismatch.message : Mismatch → String
  | .wrongType found expected => s!"invalid type: {found.describe}, expected {expected.describe}"
  | .outOfRange n expected =>
    s!"invalid value: {(Found.integer n).describe}, expected {expected.describe}"
  | .missingField key => s!"missing field `{key}`"
  | .duplicateField key => s!"duplicate field `{key}`"
  | .unknownField key known => s!"unknown field `{key}`, expected {describeChoice known}"
  | .unknownVariant name known => s!"unknown variant `{name}`, expected {describeChoice known}"
  | .tooShort length record fields =>
    s!"invalid length {length}, expected struct {record} with {fields} elements"
  | .badId e within => if within then messageWithin e.message else messageAlone e.message
  | .badAddress family => s!"invalid {addressName family} syntax"

inductive Problem
  | grammar (why : Fault)
  | data (why : Mismatch)
  deriving DecidableEq, Repr

/-- The problem of a part of a record. -/
def Problem.within : Problem → Problem
  | .data (.badId e _) => .data (.badId e true)
  | p => p

end SpanWire.Json
