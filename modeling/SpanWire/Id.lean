import SpanWire.Hex

/-!
Trace and span identifiers. An identifier is kept as the digits of its normal form, so that two
identifiers are equal exactly when their normal forms are the same text.
-/
namespace SpanWire

open Hex (Digit)

/-- Which identifier a text or a byte sequence is read as. -/
inductive IdKind
  | trace
  | span
  deriving DecidableEq, Repr

namespace IdKind

def name : IdKind → String
  | .trace => "traceId"
  | .span => "spanId"

def maxDigits : IdKind → Nat
  | .trace => 32
  | .span => 16

/-- Trace identifiers of more than 16 characters take the wide form. -/
def width : IdKind → Nat → Nat
  | .trace, length => if length ≤ 16 then 16 else 32
  | .span, _ => 16

end IdKind

inductive IdError
  | empty (kind : IdKind)
  | tooLong (kind : IdKind) (text : String)
  | notLowerHex (kind : IdKind) (text : String)
  | zero (kind : IdKind)
  | byteCount (kind : IdKind) (count : Nat)
  deriving DecidableEq, Repr

/-- The wording for a wrong byte count names both widths for either kind of identifier. -/
def IdError.message : IdError → String
  | .empty kind => s!"{kind.name} is empty"
  | .tooLong kind text => s!"{kind.name}.len() > {kind.maxDigits}: {text}"
  | .notLowerHex kind text => s!"{kind.name} should be lower-hex encoded with no prefix: {text}"
  | .zero kind => s!"{kind.name} is all zeros"
  | .byteCount kind count => s!"{kind.name} should be 8 or 16 bytes, was {count}"

/-- Digits that fit an identifier of the given kind and are not all zero. -/
structure IdKind.Numeral (kind : IdKind) where
  digits : List Digit
  length_le : digits.length ≤ kind.maxDigits
  nonzero : ∃ d ∈ digits, d ≠ Hex.Digit.zero

theorem length_toList_le_utf8ByteSize (s : String) : s.toList.length ≤ s.utf8ByteSize := by
  suffices h : ∀ cs : List Char, cs.length ≤ (String.ofList cs).utf8ByteSize by
    simpa using h s.toList
  intro cs
  induction cs with
  | nil => simp
  | cons c cs ih =>
    have hc := c.utf8Size_pos
    rw [String.ofList_cons, String.utf8ByteSize_append, String.utf8ByteSize_singleton]
    simp only [List.length_cons]
    omega

/-- Length is counted in bytes of UTF-8 and is judged before the characters are looked at. -/
def IdKind.readNumeral (kind : IdKind) (text : String) : Except IdError kind.Numeral :=
  if text.isEmpty then .error (.empty kind)
  else if hlen : text.utf8ByteSize > kind.maxDigits then .error (.tooLong kind text)
  else
    match hread : Hex.read? text.toList with
    | none => .error (.notLowerHex kind text)
    | some digits =>
      if hzero : ∃ d ∈ digits, d ≠ Hex.Digit.zero then
        .ok ⟨digits, by
          have := length_toList_le_utf8ByteSize text
          have := Hex.length_of_read? hread
          omega, hzero⟩
      else .error (.zero kind)

/-- Zeros in front up to the given width. -/
def padDigits (width : Nat) (digits : List Digit) : List Digit :=
  List.leftpad width Hex.Digit.zero digits

theorem nonzero_padDigits {width : Nat} {digits : List Digit}
    (h : ∃ d ∈ digits, d ≠ Hex.Digit.zero) : ∃ d ∈ padDigits width digits, d ≠ Hex.Digit.zero := by
  obtain ⟨d, hd, hne⟩ := h
  exact ⟨d, by simp [padDigits, List.leftpad, hd], hne⟩

/-- A trace identifier: 16 or 32 digits, not all zero. -/
structure TraceId where
  digits : List Digit
  width : digits.length = 16 ∨ digits.length = 32
  nonzero : ∃ d ∈ digits, d ≠ Hex.Digit.zero
  deriving DecidableEq

/-- A span identifier: 16 digits, not all zero. -/
structure SpanId where
  digits : List Digit
  width : digits.length = 16
  nonzero : ∃ d ∈ digits, d ≠ Hex.Digit.zero
  deriving DecidableEq

namespace TraceId

def ofHex? (text : String) : Except IdError TraceId := do
  let n ← IdKind.trace.readNumeral text
  return {
    digits := padDigits (IdKind.trace.width n.digits.length) n.digits
    width := by
      have := n.length_le
      simp only [padDigits, List.length_leftpad, IdKind.width, IdKind.maxDigits] at *
      split <;> omega
    nonzero := nonzero_padDigits n.nonzero }

def ofBytes? (bytes : List UInt8) : Except IdError TraceId :=
  if bytes.length = 8 ∨ bytes.length = 16 then ofHex? (Hex.spell (Hex.ofBytes bytes))
  else .error (.byteCount .trace bytes.length)

def toBytes (id : TraceId) : List UInt8 :=
  Hex.toBytes id.digits

/-- How many bytes the identifier names: 8 or 16. -/
def byteLength (id : TraceId) : Nat :=
  id.digits.length / 2

instance : ToString TraceId :=
  ⟨fun id => Hex.spell id.digits⟩

/-- Identifiers are ordered as their texts. -/
instance : Ord TraceId :=
  ⟨fun a b => compare (toString a) (toString b)⟩

end TraceId

namespace SpanId

def ofHex? (text : String) : Except IdError SpanId := do
  let n ← IdKind.span.readNumeral text
  return {
    digits := padDigits 16 n.digits
    width := by
      have := n.length_le
      simp only [padDigits, List.length_leftpad, IdKind.maxDigits] at *
      omega
    nonzero := nonzero_padDigits n.nonzero }

def ofBytes? (bytes : List UInt8) : Except IdError SpanId :=
  if bytes.length = 8 then ofHex? (Hex.spell (Hex.ofBytes bytes))
  else .error (.byteCount .span bytes.length)

def toBytes (id : SpanId) : List UInt8 :=
  Hex.toBytes id.digits

instance : ToString SpanId :=
  ⟨fun id => Hex.spell id.digits⟩

/-- Identifiers are ordered as their texts. -/
instance : Ord SpanId :=
  ⟨fun a b => compare (toString a) (toString b)⟩

end SpanId

end SpanWire
