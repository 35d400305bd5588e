import SpanWire.Address
import SpanWire.Hex

/-!
The texts of addresses. Each address is written in one form, with the first of the longest runs
of two or more zero groups left out, and read in many.
-/
namespace SpanWire

namespace IPv4

def toText (a : IPv4) : List Char :=
  match a.octets with
  | [] => []
  | o :: os => Nat.toDigits 10 o.toNat ++ os.flatMap fun o => '.' :: Nat.toDigits 10 o.toNat

instance : ToString IPv4 :=
  ⟨fun a => String.ofList a.toText⟩

end IPv4

namespace IPv6

/-- Where the first of the longest runs of zeros starts, counted from `start`, and its length. -/
def longestZeroRun (start : Nat) : List UInt16 → Nat × Nat
  | [] => (start, 0)
  | g :: gs =>
    let here := ((g :: gs).takeWhile (· = 0)).length
    let later := longestZeroRun (start + 1) gs
    if here < later.2 then later else (start, here)

/-- Groups in lowercase hexadecimal with colons between them. -/
def groupsText : List UInt16 → List Char
  | [] => []
  | g :: gs => Nat.toDigits 16 g.toNat ++ gs.flatMap fun g => ':' :: Nat.toDigits 16 g.toNat

def toText (a : IPv6) : List Char :=
  match a.mapped? with
  | some v4 => [':', ':', 'f', 'f', 'f', 'f', ':'] ++ v4.toText
  | none =>
    let (start, length) := longestZeroRun 0 a.groups
    if 2 ≤ length then
      groupsText (a.groups.take start) ++ [':', ':'] ++ groupsText (a.groups.drop (start + length))
    else groupsText a.groups

instance : ToString IPv6 :=
  ⟨fun a => String.ofList a.toText⟩

end IPv6

namespace AddressText

def decimalValue? (c : Char) : Option Nat :=
  if '0' ≤ c ∧ c ≤ '9' then some (c.toNat - 48) else none

/-- All digits a text starts with, if they are one at least and `limit` at most, with their value
and what follows them. -/
def readDigits (radix limit : Nat) (value? : Char → Option Nat) (s : List Char) :
    Option (List Char × Nat × List Char) :=
  let digits := s.takeWhile fun c => (value? c).isSome
  if digits.length = 0 ∨ limit < digits.length then none
  else
    let value := digits.foldl (fun n c => radix * n + (value? c).getD 0) 0
    some (digits, value, s.dropWhile fun c => (value? c).isSome)

/-- No zero stands in front of other digits, as it might mean an octal number. -/
def readOctet (s : List Char) : Option (UInt8 × List Char) := do
  let (digits, value, rest) ← readDigits 10 3 decimalValue? s
  if digits.head? = some '0' ∧ digits.length ≠ 1 then none
  else if value < 256 then some (UInt8.ofNat value, rest)
  else none

def readGroup (s : List Char) : Option (UInt16 × List Char) := do
  let (_, value, rest) ← readDigits 16 4 Hex.valueAnyCase? s
  return (UInt16.ofNat value, rest)

def expect (c : Char) : List Char → Option (List Char)
  | [] => none
  | d :: rest => if d = c then some rest else none

def readIPv4 (s : List Char) : Option (IPv4 × List Char) := do
  let (a, s) ← readOctet s
  let (b, s) ← readOctet (← expect '.' s)
  let (c, s) ← readOctet (← expect '.' s)
  let (d, s) ← readOctet (← expect '.' s)
  return (⟨[a, b, c, d], rfl⟩, s)

/-- Up to `limit` groups, of which a dotted IPv4 address may be the last two. Gives the groups,
whether such an address ended them, and what follows. -/
def readGroups (first : Bool) : Nat → List Char → List UInt16 × Bool × List Char
  | 0, s => ([], false, s)
  | limit + 1, s =>
    let unseparated := if first then some s else expect ':' s
    match (if 0 < limit then unseparated.bind readIPv4 else none) with
    | some (⟨[a, b, c, d], _⟩, rest) => ([groupOfBytes a b, groupOfBytes c d], true, rest)
    | none =>
      match unseparated.bind readGroup with
      | some (g, rest) =>
        let (gs, dotted, rest) := readGroups false limit rest
        (g :: gs, dotted, rest)
      | none => ([], false, s)

theorem length_readGroups_le (first : Bool) (limit : Nat) (s : List Char) :
    (readGroups first limit s).1.length ≤ limit := by
  induction limit generalizing first s with
  | zero => simp [readGroups]
  | succ limit ih =>
    unfold readGroups
    dsimp only
    split
    · next h =>
      split at h
      · simp only [List.length_cons, List.length_nil]
        omega
      · contradiction
    · split
      · simp only [List.length_cons]
        exact Nat.succ_le_succ (ih _ _)
      · simp

/-- Two colons stand for one zero group at least; no dotted address may stand before them. -/
def readIPv6 (s : List Char) : Option (IPv6 × List Char) :=
  let head := readGroups true 8 s
  if h : head.1.length = 8 then some (⟨head.1, h⟩, head.2.2)
  else if head.2.1 then none
  else
    match head.2.2 with
    | ':' :: ':' :: s =>
      let tail := readGroups true (8 - (head.1.length + 1)) s
      some (⟨head.1 ++ List.replicate (8 - head.1.length - tail.1.length) 0 ++ tail.1, by
        have hhead : head.1.length ≤ 8 := length_readGroups_le ..
        have htail : tail.1.length ≤ 8 - (head.1.length + 1) := length_readGroups_le ..
        simp only [List.length_append, List.length_replicate]
        omega⟩, tail.2.2)
    | _ => none

/-- What was read, if nothing is left. -/
def whole? {α : Type} (read : Option (α × List Char)) : Option α :=
  match read with
  | some (a, []) => some a
  | _ => none

end AddressText

open AddressText

def IPv4.ofText? (s : String) : Option IPv4 :=
  whole? (readIPv4 s.toList)

def IPv6.ofText? (s : String) : Option IPv6 :=
  whole? (readIPv6 s.toList)

/-- A text that starts with an IPv4 address is no IPv6 address. -/
def Address.ofText? (s : String) : Option Address :=
  match readIPv4 s.toList with
  | some (a, rest) => whole? (some (.v4 a, rest))
  | none => (IPv6.ofText? s).map .v6

end SpanWire
