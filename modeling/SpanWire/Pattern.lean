import SpanWire.Pattern.CharSet
import SpanWire.Text.Alphanumeric

/-!
Patterns for texts. No text is ever matched with one here, so a pattern is only judged: whether it
can be read, and whether a machine without tables of characters could match it.
-/
namespace SpanWire.Pattern

/-- What has been read of a group. -/
structure Body where
  /-- The heights of the finished alternatives. -/
  alternatives : List Nat
  /-- The parts of the last one, from the right: heights of what can be repeated, and flags. -/
  parts : List (Option Nat)
  deriving DecidableEq, Repr

namespace Body

def empty : Body := ⟨[], []⟩

def add (b : Body) (part : Option Nat) : Body :=
  { b with parts := part :: b.parts }

def lastHeight (b : Body) : Nat :=
  heightOf (b.parts.map (·.getD 0))

def height (b : Body) : Nat :=
  heightOf (b.lastHeight :: b.alternatives)

/-- Starts another alternative. -/
def branch (b : Body) : Body :=
  ⟨b.lastHeight :: b.alternatives, []⟩

/-- Repeats the last part. -/
def repeat? (b : Body) : Option Body :=
  match b.parts with
  | some h :: parts => some { b with parts := some (1 + h) :: parts }
  | _ => none

end Body

/-- A place in a pattern. -/
structure Place where
  flags : Flags
  body : Body
  /-- The groups around this one, with the flags that hold there. -/
  outer : List (Flags × Body)
  names : List String
  /-- Whether the end of a word has been asked for, with words of any script. -/
  needsWords : Bool
  deriving DecidableEq, Repr

namespace Place

def start : Place := ⟨.initial, .empty, [], [], false⟩

def add (p : Place) (part : Option Nat) : Place :=
  { p with body := p.body.add part }

def enter (p : Place) (flags : Flags) : Place :=
  { p with flags := flags, body := .empty, outer := (p.flags, p.body) :: p.outer }

def leave? (p : Place) : Option Place :=
  match p.outer with
  | [] => none
  | (flags, body) :: outer =>
    some { p with flags := flags, body := body.add (some (1 + p.body.height)), outer := outer }

def isNameStart (c : Char) : Bool :=
  c = '_' || Text.isAlphabetic c

def isNamePart (c : Char) : Bool :=
  ['_', '.', '[', ']'].contains c || Text.isAlphanumeric c

/-- Reads the name of a group up to its closing mark. No name is given twice. -/
def readName (p : Place) (s : List Char) : Option (Place × List Char) :=
  let name := s.takeWhile (· ≠ '>')
  match name, s.dropWhile (· ≠ '>') with
  | c :: cs, _ :: rest =>
    if isNameStart c ∧ cs.all isNamePart ∧ ¬ p.names.contains (String.ofList name) then
      some ({ p.enter p.flags with names := String.ofList name :: p.names }, rest)
    else none
  | _, _ => none

/-- Reads what follows an opening parenthesis: a name, or flags for the group or from here on. -/
def readGroup (p : Place) (s : List Char) : Option (Place × List Char) :=
  match p.flags.skip s with
  | '?' :: 'P' :: '<' :: cs => p.readName cs
  | '?' :: '<' :: cs => p.readName cs
  | '?' :: cs => do
    let (given, stop, rest) ← Flags.read [] cs
    let flags := p.flags.update given
    if stop = ':' then return (p.enter flags, rest)
    else if given = [] then none
    else return ({ p.add none with flags := flags }, rest)
  | cs => some (p.enter p.flags, cs)

def readAtom (p : Place) (a : Atom) : Option Place :=
  if a.standsAlone p.flags then
    let needsWords := a = .boundary true ∧ p.flags.unicode
    some { p.add (some 0) with needsWords := p.needsWords || needsWords }
  else none

/-- Reads the part that starts with a character. A count between braces is refused. -/
def readPart (p : Place) (c : Char) (cs : List Char) : Option (Place × List Char) :=
  match c with
  | '(' => p.readGroup cs
  | ')' => p.leave?.map fun p => (p, cs)
  | '|' => some ({ p with body := p.body.branch }, cs)
  | '[' => (CharSet.read p.flags cs).map fun r => (p.add (some r.1), r.2)
  | '?' | '*' | '+' => p.body.repeat?.map fun body =>
      ({ p with body := body }, if cs.head? = some '?' then cs.tail else cs)
  | '{' => none
  | '\\' => do
    let (a, rest) ← Atom.readEscape p.flags cs
    return (← p.readAtom a, rest)
  | '.' => if p.flags.unicode then some (p.add (some 0), cs) else none
  | '^' | '$' => (p.readAtom (.boundary false)).map fun p => (p, cs)
  | c => (p.readAtom (.char c false)).map fun p => (p, cs)

theorem length_of_readName {p q : Place} {s rest : List Char}
    (h : p.readName s = some (q, rest)) : rest.length ≤ s.length := by
  have := (List.dropWhile_sublist (l := s) (· ≠ '>')).length_le
  unfold readName at h
  grind

theorem length_of_readGroup {p q : Place} {s rest : List Char}
    (h : p.readGroup s = some (q, rest)) : rest.length ≤ s.length := by
  have := p.flags.length_skip_le s
  simp only [readGroup, Option.bind_eq_bind, Option.pure_def] at h
  grind [Option.bind_eq_some_iff, → length_of_readName, → Flags.length_of_read]

theorem length_of_readPart {p q : Place} {c : Char} {cs rest : List Char}
    (h : p.readPart c cs = some (q, rest)) : rest.length ≤ cs.length := by
  simp only [readPart, Option.bind_eq_bind, Option.pure_def] at h
  grind [Option.map_eq_some_iff, Option.bind_eq_some_iff, → length_of_readGroup,
    → CharSet.length_of_read, → Atom.length_of_readEscape]

/-- Reads on to the end. -/
def readOn (p : Place) (s : List Char) : Option Place :=
  match _ : p.flags.skip s with
  | [] => some p
  | c :: cs =>
    match _ : p.readPart c cs with
    | none => none
    | some (q, rest) => readOn q rest
termination_by s.length
decreasing_by
  have := p.flags.length_skip_le s
  have := length_of_readPart ‹_›
  grind

end Place

/-- Why a pattern cannot be used. -/
inductive Flaw
  | unreadable
  | needsWords
  deriving DecidableEq, Repr

/-- What is wrong with a pattern. All groups have to be closed. -/
def flaw? (text : List Char) : Option Flaw :=
  match Place.start.readOn text with
  | none => some .unreadable
  | some p =>
    if p.outer ≠ [] ∨ maxHeight < p.body.height then some .unreadable
    else if p.needsWords then some .needsWords
    else none

end SpanWire.Pattern
