import SpanWire.Hex
import SpanWire.Json.Number

/-!
Texts between quotes. A quotation is first cut into pieces, which is all that skipping one asks
for; its value also needs the numbered UTF-16 units among the pieces to pair up.
-/
namespace SpanWire.Json

/-- A character, or a UTF-16 unit given by its number. -/
inductive Piece
  | char (c : Char)
  | unit (n : Nat)
  deriving DecidableEq, Repr

/-- What stands after an opening quote. Without a fault the closing quote was found. -/
structure Quotation where
  pieces : List Piece
  fault : Option Fault
  deriving DecidableEq, Repr

namespace Quotation

def unitOfDigits? (a b c d : Char) : Option Nat := do
  let a ← Hex.valueAnyCase? a
  let b ← Hex.valueAnyCase? b
  let c ← Hex.valueAnyCase? c
  let d ← Hex.valueAnyCase? d
  return ((a * 16 + b) * 16 + c) * 16 + d

/-- The character a one-letter escape stands for. -/
def ofEscape? : Char → Option Char
  | '"' => some '"'
  | '\\' => some '\\'
  | '/' => some '/'
  | 'b' => some '\x08'
  | 'f' => some '\x0c'
  | 'n' => some '\n'
  | 'r' => some '\r'
  | 't' => some '\t'
  | _ => none

/-- The fault of a numbered unit that is followed by fewer than four characters. Characters are
missing only where bytes are. -/
def faultOfShortUnit (s : List Char) : Fault :=
  if (String.ofList s).utf8ByteSize < 4 then .ended else .malformed

/-- Cuts a text that follows an opening quote, given the pieces before it in reverse. Gives what
follows the closing quote. -/
def scan (seen : List Piece) : List Char → Quotation × List Char
  | [] => (⟨seen.reverse, some .ended⟩, [])
  | '"' :: rest => (⟨seen.reverse, none⟩, rest)
  | '\\' :: [] => (⟨seen.reverse, some .ended⟩, [])
  | '\\' :: 'u' :: a :: b :: c :: d :: rest =>
    match unitOfDigits? a b c d with
    | some n => scan (.unit n :: seen) rest
    | none => (⟨seen.reverse, some .malformed⟩, [])
  | '\\' :: 'u' :: short => (⟨seen.reverse, some (faultOfShortUnit short)⟩, [])
  | '\\' :: e :: rest =>
    match ofEscape? e with
    | some c => scan (.char c :: seen) rest
    | none => (⟨seen.reverse, some .malformed⟩, [])
  | c :: rest =>
    if c.toNat < 32 then (⟨seen.reverse, some .malformed⟩, [])
    else scan (.char c :: seen) rest

theorem scan_shortens (seen : List Piece) (s : List Char) :
    (scan seen s).2.length ≤ s.length := by
  fun_induction scan seen s <;> simp_all <;> omega

def isHighSurrogate (n : Nat) : Bool :=
  0xd800 ≤ n && n ≤ 0xdbff

def isLowSurrogate (n : Nat) : Bool :=
  0xdc00 ≤ n && n ≤ 0xdfff

/-- The character that two surrogates spell. -/
def ofSurrogates (high low : Nat) : Char :=
  Char.ofNat (0x10000 + (high - 0xd800) * 0x400 + (low - 0xdc00))

/-- Joins pieces to characters, given those before them in reverse. A high surrogate needs a low
one right after it, and a low one is nothing by itself. -/
def join (fault : Option Fault) (done : List Char) : List Piece → Except Fault String
  | [] => match fault with
    | none => .ok (String.ofList done.reverse)
    | some f => .error f
  | .char c :: ps => join fault (c :: done) ps
  | .unit n :: ps =>
    if isLowSurrogate n then .error .malformed
    else if isHighSurrogate n then
      match ps with
      | [] => .error (fault.getD .malformed)
      | .char _ :: _ => .error .malformed
      | .unit m :: ps =>
        if isLowSurrogate m then join fault (ofSurrogates n m :: done) ps else .error .malformed
    else join fault (Char.ofNat n :: done) ps

def value (q : Quotation) : Except Fault String :=
  join q.fault [] q.pieces

end Quotation

end SpanWire.Json
