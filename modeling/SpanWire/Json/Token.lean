import SpanWire.Json.Quotation

/-!
The tokens of a text. A token that breaks the grammar is kept with its fault and is the last one,
so a fault never hides what stands before it.
-/
namespace SpanWire.Json

inductive Literal
  | null
  | true
  | false
  deriving DecidableEq, Repr

def Literal.spelling : Literal → List Char
  | .null => ['n', 'u', 'l', 'l']
  | .true => ['t', 'r', 'u', 'e']
  | .false => ['f', 'a', 'l', 's', 'e']

inductive Token
  | openArray
  | closeArray
  | openObject
  | closeObject
  | colon
  | comma
  | literal (l : Literal) (torn : Option Fault)
  | number (n : Except Fault Numeral)
  | text (q : Quotation)
  /-- A character that starts no token. -/
  | stray

namespace Token

/-- Whether a text cannot be read on after the token. -/
def isBroken : Token → Bool
  | literal _ torn => torn.isSome
  | number (.error _) => true
  | text q => q.fault.isSome
  | stray => true
  | _ => false

def isBlank (c : Char) : Bool :=
  c = ' ' || c = '\t' || c = '\n' || c = '\r'

/-- Takes the expected characters from the front. Gives the fault at the first that is missing,
and what follows. -/
def scanSpelling : List Char → List Char → Option Fault × List Char
  | [], s => (none, s)
  | _ :: _, [] => (some .ended, [])
  | e :: es, c :: s => if e = c then scanSpelling es s else (some .malformed, [])

/-- The literal whose spelling starts with the character. -/
def literalAt? : Char → Option Literal
  | 'n' => some .null
  | 't' => some .true
  | 'f' => some .false
  | _ => none

/-- The token of one character. -/
def mark? : Char → Option Token
  | '[' => some openArray
  | ']' => some closeArray
  | '{' => some openObject
  | '}' => some closeObject
  | ':' => some colon
  | ',' => some comma
  | _ => none

/-- Reads the token that starts with `c`, and what follows it. -/
def scan (c : Char) (cs : List Char) : Token × List Char :=
  match mark? c with
  | some t => (t, cs)
  | none =>
    match literalAt? c with
    | some l =>
      let (torn, rest) := scanSpelling l.spelling.tail cs
      (literal l torn, rest)
    | none =>
      if c = '"' then
        let (q, rest) := Quotation.scan [] cs
        (text q, rest)
      else if c = '-' || Text.isDigit c then
        match Numeral.scan (c :: cs) with
        | .ok (n, rest) => (number (.ok n), rest)
        | .error f => (number (.error f), [])
      else (stray, [])

theorem scanSpelling_shortens (es s : List Char) : (scanSpelling es s).2.length ≤ s.length := by
  fun_induction scanSpelling es s with
  | case1 s => exact Nat.le_refl _
  | case2 => simp
  | case3 es c cs ih => exact Nat.le_succ_of_le ih
  | case4 => simp

theorem scan_shortens (c : Char) (cs : List Char) : (scan c cs).2.length ≤ cs.length := by
  unfold scan
  split
  · exact Nat.le_refl _
  · split
    · exact scanSpelling_shortens _ _
    · split
      · exact Quotation.scan_shortens _ _
      · split
        · split
          · next h =>
            exact Nat.le_of_lt_succ (Numeral.scan_shortens h)
          · simp
        · simp

/-- The tokens of a text, given those before it in reverse. -/
def scanAll (seen : List Token) (s : List Char) : List Token :=
  match s with
  | [] => seen.reverse
  | c :: cs =>
    if isBlank c then scanAll seen cs
    else
      let next := scan c cs
      if next.1.isBroken then (next.1 :: seen).reverse else scanAll (next.1 :: seen) next.2
termination_by s.length
decreasing_by
  · simp
  · have := scan_shortens c cs
    simp only [List.length_cons]
    omega

def ofText (s : String) : List Token :=
  scanAll [] s.toList

end Token

end SpanWire.Json
