import SpanWire.Json.Token

/-!
The shape of a text, read as far as its grammar holds. A draft keeps everything up to the first
fault, and the fault in the place where it stands, so that a reader which goes through a draft
from the left meets the problems of a text in their order.
-/
namespace SpanWire.Json

/-- A fault as a skipped value shows it: the end of the text inside a number is no better than a
wrong character. -/
def Token.skipFault : Token → Option Fault
  | literal _ torn => torn
  | number (.ok _) => none
  | text q => q.fault
  | _ => some .malformed

/-- What stands where a value is due. A leaf holds the token found there, or nothing if the text
has ended; a key likewise. A cut array or object was not closed. -/
inductive Draft
  | leaf (t : Option Token)
  | array (items : List Draft) (cut : Option Fault)
  | object (members : List (Option Token × Draft)) (cut : Option Fault)

namespace Draft

/-- The fault that stops whoever skips the value. An inner fault cuts everything around it. -/
def skipFault : Draft → Option Fault
  | leaf none => some .ended
  | leaf (some t) => t.skipFault
  | array _ cut => cut
  | object _ cut => cut

/-- A place where a value is due and another character stands. -/
def noValue : Draft :=
  leaf (some .stray)

end Draft

/-- An array or object that is still open, with what was read of it in reverse. An object waits
for the value of its last key. -/
inductive Frame
  | array (items : List Draft)
  | object (members : List (Option Token × Draft)) (key : Option Token)

/-- Ends a frame with its last value. -/
def Frame.close (cut : Option Fault) (d : Draft) : Frame → Draft
  | array items => .array (d :: items).reverse cut
  | object members key => .object ((key, d) :: members).reverse cut

/-- Ends all open frames, the innermost first, because of a fault. -/
def unwind (why : Fault) (stack : List Frame) (d : Draft) : Draft :=
  stack.foldl (fun d f => f.close (some why) d) d

/-- The one value a text holds, and whether anything but blanks follows it. -/
structure Document where
  draft : Draft
  trailing : Bool

/-- The reading of a text, token after token: what is due next, inside which open frames. -/
inductive Progress
  | value (stack : List Frame)
  | firstItem (stack : List Frame)
  | firstKey (stack : List Frame)
  | key (members : List (Option Token × Draft)) (stack : List Frame)
  | colon (members : List (Option Token × Draft)) (key : Token) (stack : List Frame)
  | after (d : Draft) (stack : List Frame)
  | stopped (read : Document)

namespace Progress

/-- The end of the reading at a fault, with the value read last. -/
def halt (why : Fault) (stack : List Frame) (d : Draft) : Progress :=
  stopped ⟨unwind why stack d, false⟩

def stepValue (stack : List Frame) (t : Token) : Progress :=
  match t with
  | .openArray => firstItem stack
  | .openObject => firstKey stack
  | t =>
    match t.skipFault with
    | none => after (.leaf (some t)) stack
    | some why => halt why stack (.leaf (some t))

/-- A key is a text; any other token in its place is kept and ends the reading. -/
def stepKey (members : List (Option Token × Draft)) (stack : List Frame) (t : Token) : Progress :=
  match t with
  | .text ⟨pieces, none⟩ => colon members (.text ⟨pieces, none⟩) stack
  | .text ⟨pieces, some why⟩ =>
    halt why (.object members (some (.text ⟨pieces, some why⟩)) :: stack) .noValue
  | t => halt .malformed (.object members (some t) :: stack) .noValue

def step : Progress → Token → Progress
  | value stack, t => stepValue stack t
  | firstItem stack, t =>
    match t with
    | .closeArray => after (.array [] none) stack
    | t => stepValue (.array [] :: stack) t
  | firstKey stack, t =>
    match t with
    | .closeObject => after (.object [] none) stack
    | t => stepKey [] stack t
  | key members stack, t => stepKey members stack t
  | colon members k stack, t =>
    match t with
    | .colon => value (.object members (some k) :: stack)
    | _ => halt .malformed (.object members (some k) :: stack) .noValue
  | after d [], _ => stopped ⟨d, true⟩
  | after d (.array items :: stack), t =>
    match t with
    | .comma => value (.array (d :: items) :: stack)
    | .closeArray => after (Frame.close none d (.array items)) stack
    | _ => halt .malformed (.array items :: stack) d
  | after d (.object members k :: stack), t =>
    match t with
    | .comma => key ((k, d) :: members) stack
    | .closeObject => after (Frame.close none d (.object members k)) stack
    | _ => halt .malformed (.object members k :: stack) d
  | stopped read, _ => stopped read

/-- What was read when the text ends. -/
def finish : Progress → Document
  | value stack => ⟨unwind .ended stack (.leaf none), false⟩
  | firstItem stack => ⟨unwind .ended (.array [] :: stack) (.leaf none), false⟩
  | firstKey stack => ⟨unwind .ended (.object [] none :: stack) (.leaf none), false⟩
  | key members stack => ⟨unwind .ended (.object members none :: stack) (.leaf none), false⟩
  | colon members k stack => ⟨unwind .ended (.object members (some k) :: stack) (.leaf none), false⟩
  | after d stack => ⟨unwind .ended stack d, false⟩
  | stopped read => read

end Progress

/-- The draft of the one value a text holds. -/
def Document.ofText (s : String) : Document :=
  ((Token.ofText s).foldl Progress.step (.value [])).finish

end SpanWire.Json
