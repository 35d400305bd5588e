import SpanWire.Text.Blank

/-! What the flags of a pattern change about reading it. -/
namespace SpanWire.Pattern

structure Flags where
  /-- Letters stand for both their cases. -/
  caseless : Bool
  /-- Characters count, not bytes. -/
  unicode : Bool
  /-- Blanks and comments are passed over. -/
  spaced : Bool
  deriving DecidableEq, Repr

namespace Flags

def initial : Flags := ⟨false, true, false⟩

/-- Skips blanks, and comments from a number sign to the end of the line. -/
def skipSpaces : (inComment : Bool) → List Char → List Char
  | _, [] => []
  | true, c :: cs => skipSpaces (c ≠ '\n') cs
  | false, c :: cs =>
    if Text.blanks.contains c then skipSpaces false cs
    else if c = '#' then skipSpaces true cs
    else c :: cs

def skip (f : Flags) (s : List Char) : List Char :=
  if f.spaced then skipSpaces false s else s

/-- The character that tells what a hyphen in a set means. One number sign is looked past, but not
what it comments out; where only blanks follow, the first of them counts. -/
def lookAhead (f : Flags) (s : List Char) : Option Char :=
  if f.spaced then
    let next := match s.dropWhile Text.blanks.contains with
      | '#' :: cs => cs.dropWhile Text.blanks.contains
      | cs => cs
    next.head?.or s.head?
  else s.head?

/-- The flags that can be given. Only three of them matter here: whether a pattern can be read does
not depend on what a point, an anchor or a repetition matches. -/
def letters : List Char := ['i', 'm', 's', 'U', 'u', 'R', 'x']

/-- Reads flags up to a colon or closing parenthesis, given those before in reverse. What stands
behind a hyphen is turned off. Nothing is given twice. -/
def read (given : List Char) : List Char → Option (List Char × Char × List Char)
  | [] => none
  | c :: cs =>
    if c = ':' ∨ c = ')' then
      if given.head? = some '-' then none else some (given.reverse, c, cs)
    else if given.contains c then none
    else if c = '-' ∨ letters.contains c then read (c :: given) cs
    else none

/-- Whether a flag is turned on or off, if it is given at all. -/
def setting? (given : List Char) (flag : Char) : Option Bool :=
  if given.contains flag then some ((given.takeWhile (· ≠ '-')).contains flag) else none

def update (f : Flags) (given : List Char) : Flags where
  caseless := (setting? given 'i').getD f.caseless
  unicode := (setting? given 'u').getD f.unicode
  spaced := (setting? given 'x').getD f.spaced

theorem length_skipSpaces_le (inComment : Bool) (s : List Char) :
    (skipSpaces inComment s).length ≤ s.length := by
  fun_induction skipSpaces inComment s with
  | case1 => exact Nat.le_refl _
  | case2 c cs ih => exact Nat.le_succ_of_le ih
  | case3 c cs _ ih => exact Nat.le_succ_of_le ih
  | case4 cs _ ih => exact Nat.le_succ_of_le ih
  | case5 => exact Nat.le_refl _

theorem length_skip_le (f : Flags) (s : List Char) : (f.skip s).length ≤ s.length := by
  unfold skip
  split
  · exact length_skipSpaces_le _ _
  · exact Nat.le_refl _

theorem length_of_read {given flags rest s : List Char} {stop : Char}
    (h : read given s = some (flags, stop, rest)) : rest.length < s.length := by
  fun_induction read given s with
  | case1 => contradiction
  | case2 => contradiction
  | case3 given c cs =>
    simp only [Option.some.injEq, Prod.mk.injEq] at h
    simp [h.2.2]
  | case4 => contradiction
  | case5 given c cs _ _ _ ih => exact Nat.lt_succ_of_lt (ih h)
  | case6 => contradiction

end Flags

end SpanWire.Pattern
