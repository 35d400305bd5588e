/-! Lowercase hexadecimal: digits, and the digits that spell a sequence of bytes. -/
namespace SpanWire.Hex

/-- A hexadecimal digit, by its value. -/
abbrev Digit := Fin 16

def Digit.toChar (d : Digit) : Char :=
  if d.val < 10 then Char.ofNat (48 + d.val) else Char.ofNat (87 + d.val)

/-- Only `0` to `9` and `a` to `f` are digits; capitals are not. -/
def Digit.ofChar? (c : Char) : Option Digit :=
  if '0' ≤ c ∧ c ≤ '9' then some (Fin.ofNat 16 (c.toNat - 48))
  else if 'a' ≤ c ∧ c ≤ 'f' then some (Fin.ofNat 16 (c.toNat - 87))
  else none

def Digit.zero : Digit :=
  Fin.ofNat 16 0

/-- The value of a digit in either case, for the formats that take both. -/
def valueAnyCase? (c : Char) : Option Nat :=
  if 'A' ≤ c ∧ c ≤ 'F' then some (c.toNat - 55)
  else (Digit.ofChar? c).map Fin.val

/-- The digits a text spells, if it holds nothing else. -/
def read? : List Char → Option (List Digit)
  | [] => some []
  | c :: cs => do
    let d ← Digit.ofChar? c
    let ds ← read? cs
    some (d :: ds)

theorem length_of_read? {cs : List Char} {ds : List Digit} (h : read? cs = some ds) :
    ds.length = cs.length := by
  induction cs generalizing ds with
  | nil => simp_all [read?]
  | cons c cs ih =>
    simp only [read?, Option.bind_eq_bind, Option.bind_eq_some_iff, Option.some.injEq] at h
    obtain ⟨d, -, rest, hrest, rfl⟩ := h
    simp [ih hrest]

/-- The two digits of a byte, the more significant one first. -/
def digitsOfByte (b : UInt8) : List Digit :=
  [Fin.ofNat 16 (b.toNat / 16), Fin.ofNat 16 (b.toNat % 16)]

def ofBytes (bs : List UInt8) : List Digit :=
  bs.flatMap digitsOfByte

/-- Reads two digits a byte. A digit left alone at the end is dropped. -/
def toBytes : List Digit → List UInt8
  | hi :: lo :: ds => UInt8.ofNat (16 * hi.val + lo.val) :: toBytes ds
  | _ => []

def spell (ds : List Digit) : String :=
  String.ofList (ds.map Digit.toChar)

end SpanWire.Hex
