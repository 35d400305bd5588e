import SpanWire.Pattern.Atom
import SpanWire.Pattern.Height

/-! Sets of characters between brackets, which nest and can be combined. -/
namespace SpanWire.Pattern

/-- An open set. -/
structure OpenSet where
  /-- The height of what stands before the last operator. -/
  left : Option Nat
  /-- The heights of the items behind it. -/
  items : List Nat
  /-- Whether nothing but hyphens stands behind the bracket. -/
  fresh : Bool
  deriving DecidableEq, Repr

namespace OpenSet

def empty : OpenSet := ⟨none, [], true⟩

def add (o : OpenSet) (height : Nat) : OpenSet :=
  { o with items := height :: o.items, fresh := false }

def addHyphen (o : OpenSet) : OpenSet :=
  { o with items := 0 :: o.items }

def height (o : OpenSet) : Nat :=
  heightOf (heightOf o.items :: o.left.toList)

/-- What was read so far is the left side of an operator. -/
def combine (o : OpenSet) : OpenSet :=
  ⟨some o.height, [], false⟩

end OpenSet

namespace CharSet

/-- The sets that have a name, as in `[:alpha:]`. All are within ASCII. -/
def names : List String :=
  ["alnum", "alpha", "ascii", "blank", "cntrl", "digit", "graph", "lower", "print", "punct",
   "space", "upper", "word", "xdigit"]

/-- Reads a set with a name behind its bracket. Gives whether it is negated. -/
def readNamed (s : List Char) : Option (Bool × List Char) :=
  match s with
  | ':' :: s =>
    let (negated, s) := match s with
      | '^' :: s => (true, s)
      | s => (false, s)
    match s.dropWhile (· ≠ ':') with
    | ':' :: ']' :: rest =>
      if names.contains (String.ofList (s.takeWhile (· ≠ ':'))) then some (negated, rest) else none
    | _ => none
  | _ => none

/-- Whether a character of ASCII can be in a set. Without tables it has no other case. -/
def charStands (f : Flags) : Bool :=
  !f.unicode || !f.caseless

/-- Whether a set with a name can be in a set. Where bytes count, its complement cannot. -/
def namedStands (f : Flags) (negated : Bool) : Bool :=
  if f.unicode then !f.caseless else !negated

/-- Reads what follows the bracket of a set. A caret negates the set. -/
def readOpening (f : Flags) (s : List Char) : Option (List Char) :=
  match f.skip s with
  | '^' :: cs => if f.unicode then some cs else none
  | cs => some cs

/-- A bracket or an operator stands for itself as an item. -/
def readItem (f : Flags) : List Char → Option (Atom × List Char)
  | [] => none
  | '\\' :: cs => Atom.readEscape f cs
  | c :: cs => some (.char c false, cs)

/-- Reads an item, or a range from one character to another. A hyphen before a bracket or another
hyphen is not part of a range. -/
def readRange (f : Flags) (s : List Char) : Option (List Char) := do
  let (low, rest) ← readItem f s
  if !low.standsInSet f then none
  else
    match f.skip rest with
    | '-' :: cs =>
      if f.lookAhead cs = some ']' ∨ f.lookAhead cs = some '-' then some rest
      else do
        let (high, rest) ← readItem f (f.skip cs)
        match low, high with
        | .char a _, .char b _ => if a ≤ b ∧ high.standsInSet f then some rest else none
        | _, _ => none
    | _ => some rest

inductive Token
  | hyphen
  | item
  | opening
  | closing
  | operator
  deriving DecidableEq, Repr

/-- Reads the next part of an open set. -/
def readToken (f : Flags) (o : OpenSet) : List Char → Option (Token × List Char)
  | [] => none
  | '[' :: cs =>
    match readNamed cs with
    | some (negated, rest) => if namedStands f negated then some (.item, rest) else none
    | none => (readOpening f cs).map fun rest => (.opening, rest)
  | ']' :: cs =>
    if o.fresh ∧ o.items = [] then
      if charStands f then some (.item, cs) else none
    else some (.closing, cs)
  | '&' :: '&' :: cs => some (.operator, cs)
  | '~' :: '~' :: cs => some (.operator, cs)
  | '-' :: cs =>
    if o.fresh then
      if charStands f then some (.hyphen, cs) else none
    else if cs.head? = some '-' then some (.operator, cs.tail)
    else (readRange f ('-' :: cs)).map fun rest => (.item, rest)
  | s => (readRange f s).map fun rest => (.item, rest)

theorem length_of_readNamed {s rest : List Char} {negated : Bool}
    (h : readNamed s = some (negated, rest)) : rest.length < s.length := by
  unfold readNamed at h
  split at h
  · next s =>
    have hs : ∀ t u : List Char, t.dropWhile (· ≠ ':') = ':' :: ']' :: u → u.length < t.length := by
      intro t u ht
      have := (List.dropWhile_sublist (l := t) (· ≠ ':')).length_le
      simp only [ht, List.length_cons] at this
      omega
    grind
  · contradiction

theorem length_of_readOpening {f : Flags} {s rest : List Char} (h : readOpening f s = some rest) :
    rest.length ≤ s.length := by
  have := f.length_skip_le s
  unfold readOpening at h
  grind

theorem length_of_readItem {f : Flags} {a : Atom} {s rest : List Char}
    (h : readItem f s = some (a, rest)) : rest.length < s.length := by
  unfold readItem at h
  split at h
  · contradiction
  · exact Nat.lt_succ_of_lt (Atom.length_of_readEscape h)
  · simp only [Option.some.injEq, Prod.mk.injEq] at h
    simp [h.2]

theorem length_of_readRange {f : Flags} {s rest : List Char} (h : readRange f s = some rest) :
    rest.length < s.length := by
  unfold readRange at h
  simp only [Option.bind_eq_bind, Option.bind_eq_some_iff] at h
  obtain ⟨⟨low, r⟩, hr, h⟩ := h
  have := length_of_readItem hr
  have := f.length_skip_le r
  split at h
  · contradiction
  · split at h
    · next cs hcs =>
      split at h
      · grind
      · simp only [Option.bind_eq_some_iff] at h
        obtain ⟨⟨high, r'⟩, hr', h⟩ := h
        have := length_of_readItem hr'
        have := f.length_skip_le cs
        grind
    · grind

theorem length_of_readToken {f : Flags} {o : OpenSet} {t : Token} {s rest : List Char}
    (h : readToken f o s = some (t, rest)) : rest.length < s.length := by
  unfold readToken at h
  grind [Option.map_eq_some_iff, → length_of_readNamed, → length_of_readOpening,
    → length_of_readRange]

/-- Reads up to the bracket that closes the outermost of some open sets. Gives its height. -/
def readOpen (f : Flags) (o : OpenSet) (outer : List OpenSet) (s : List Char) :
    Option (Nat × List Char) :=
  match _ : readToken f o (f.skip s) with
  | none => none
  | some (.hyphen, rest) => readOpen f o.addHyphen outer rest
  | some (.item, rest) => readOpen f (o.add 0) outer rest
  | some (.opening, rest) => readOpen f .empty (o :: outer) rest
  | some (.operator, rest) => readOpen f o.combine outer rest
  | some (.closing, rest) =>
    match outer with
    | [] => some (1 + o.height, rest)
    | parent :: outer => readOpen f (parent.add (1 + o.height)) outer rest
termination_by s.length
decreasing_by all_goals exact Nat.lt_of_lt_of_le (length_of_readToken ‹_›) (f.length_skip_le s)

theorem length_of_readOpen {f : Flags} {o : OpenSet} {outer : List OpenSet} {s rest : List Char}
    {height : Nat} (h : readOpen f o outer s = some (height, rest)) : rest.length < s.length := by
  fun_induction readOpen f o outer s <;> grind [→ length_of_readToken, Flags.length_skip_le]

/-- Reads a set behind its bracket. Gives its height. -/
def read (f : Flags) (s : List Char) : Option (Nat × List Char) := do
  readOpen f .empty [] (← readOpening f s)

theorem length_of_read {f : Flags} {s rest : List Char} {height : Nat}
    (h : read f s = some (height, rest)) : rest.length < s.length := by
  simp only [read, Option.bind_eq_bind, Option.bind_eq_some_iff] at h
  obtain ⟨r, hr, h⟩ := h
  exact Nat.lt_of_lt_of_le (length_of_readOpen h) (length_of_readOpening hr)

end CharSet

end SpanWire.Pattern
