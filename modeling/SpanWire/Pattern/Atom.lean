import SpanWire.Hex
import SpanWire.Pattern.Flags

/-! The smallest parts of a pattern, and which of them can stand where. -/
namespace SpanWire.Pattern

inductive Atom
  /-- A character, perhaps given by two hexadecimal digits. -/
  | char (c : Char) (byHexPair : Bool)
  /-- Digits, blanks or word characters, or all others. -/
  | shorthand (negated : Bool)
  /-- An end of the text, or of a word. -/
  | boundary (ofWord : Bool)
  deriving DecidableEq, Repr

namespace Atom

/-- Where characters count, whatever depends on a table of them is refused, as there is none. Where
bytes count, whatever could match a part of a character is refused. -/
def standsAlone (f : Flags) : Atom → Bool
  | char c byHexPair => if f.unicode then !f.caseless else !byHexPair || c.toNat < 128
  | shorthand negated => !f.unicode && !negated
  | boundary _ => true

def standsInSet (f : Flags) : Atom → Bool
  | char c _ => if f.unicode then !f.caseless else c.toNat < 128
  | shorthand negated => !f.unicode && !negated
  | boundary _ => false

/-- How many hexadecimal digits follow an escape. -/
def hexDigits? : Char → Option Nat
  | 'x' => some 2
  | 'u' => some 4
  | 'U' => some 8
  | _ => none

/-- Reads a number of hexadecimal digits, given the value of those before. -/
def readHex (f : Flags) : (count value : Nat) → List Char → Option (Nat × List Char)
  | 0, value, s => some (value, s)
  | count + 1, value, s =>
    match f.skip s with
    | [] => none
    | c :: cs =>
      match Hex.valueAnyCase? c with
      | some digit => readHex f count (16 * value + digit) cs
      | none => none

/-- The characters that one letter or mark stands for. Marks of ASCII stand for themselves, but for
two that are not characters. -/
def ofEscape? : Char → Option Atom
  | 'a' => some (char '\x07' false)
  | 'f' => some (char '\x0c' false)
  | 'n' => some (char '\n' false)
  | 'r' => some (char '\r' false)
  | 't' => some (char '\t' false)
  | 'v' => some (char '\x0b' false)
  | 'd' | 's' | 'w' => some (shorthand false)
  | 'D' | 'S' | 'W' => some (shorthand true)
  | 'A' | 'z' => some (boundary false)
  | 'b' | 'B' | '<' | '>' => some (boundary true)
  | c => if c.toNat < 128 && !c.isAlphanum then some (char c false) else none

/-- Reads what follows a backslash. Classes of characters by name are refused with the rest. -/
def readEscape (f : Flags) : List Char → Option (Atom × List Char)
  | [] => none
  | c :: cs =>
    match hexDigits? c with
    | some count => do
      let (value, rest) ← readHex f count 0 cs
      if value.isValidChar then some (char (Char.ofNat value) (count = 2), rest) else none
    | none => (ofEscape? c).map fun a => (a, cs)

theorem length_of_readHex {f : Flags} {count value n : Nat} {s rest : List Char}
    (h : readHex f count value s = some (n, rest)) : rest.length ≤ s.length := by
  fun_induction readHex f count value s with
  | case1 value s =>
    simp only [Option.some.injEq, Prod.mk.injEq] at h
    simp [h.2]
  | case2 => contradiction
  | case3 count value s c cs hs digit _ ih =>
    have := ih h
    have := f.length_skip_le s
    simp only [hs, List.length_cons] at this
    omega
  | case4 => contradiction

theorem length_of_readEscape {f : Flags} {a : Atom} {s rest : List Char}
    (h : readEscape f s = some (a, rest)) : rest.length < s.length := by
  match s, h with
  | c :: cs, h =>
    simp only [readEscape] at h
    split at h
    · simp only [Option.bind_eq_bind, Option.bind_eq_some_iff] at h
      obtain ⟨⟨value, r⟩, hr, h⟩ := h
      split at h
      · simp only [Option.some.injEq, Prod.mk.injEq] at h
        have := length_of_readHex hr
        simp only [← h.2, List.length_cons]
        omega
      · contradiction
    · simp only [Option.map_eq_some_iff, Prod.mk.injEq] at h
      obtain ⟨_, _, _, rfl⟩ := h
      simp

end Atom

end SpanWire.Pattern
