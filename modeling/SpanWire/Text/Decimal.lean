/-! Numbers written in decimal digits. -/
namespace SpanWire.Text

def isDigit (c : Char) : Bool :=
  '0' ≤ c && c ≤ '9'

def digitValue (c : Char) : Nat :=
  c.toNat - 48

def natOfDigits (ds : List Char) : Nat :=
  ds.foldl (fun n c => 10 * n + digitValue c) 0

/-- Puts a digit behind a number that stays below a bound. -/
def appendDigit? (bound n : Nat) (c : Char) : Option Nat :=
  let next := 10 * n + digitValue c
  if next < bound then some next else none

/-- The number that digits write, unless it reaches a bound. It is not computed any further then,
however many digits there are. -/
def natBelow? (bound : Nat) (ds : List Char) : Option Nat :=
  ds.foldlM (appendDigit? bound) 0

theorem le_foldl_digits (n : Nat) (ds : List Char) :
    n ≤ ds.foldl (fun n c => 10 * n + digitValue c) n := by
  induction ds generalizing n with
  | nil => exact Nat.le_refl n
  | cons c cs ih =>
    have := ih (10 * n + digitValue c)
    simp only [List.foldl_cons]
    omega

theorem natBelow?_eq {bound : Nat} (h : 0 < bound) (ds : List Char) :
    natBelow? bound ds = if natOfDigits ds < bound then some (natOfDigits ds) else none := by
  suffices hs : ∀ n < bound, ds.foldlM (appendDigit? bound) n =
      let m := ds.foldl (fun n c => 10 * n + digitValue c) n
      if m < bound then some m else none from hs 0 h
  induction ds with
  | nil =>
    intro n hn
    simp [hn]
  | cons c cs ih =>
    intro n _
    simp only [List.foldlM_cons, List.foldl_cons]
    by_cases hc : 10 * n + digitValue c < bound
    · simp only [appendDigit?, hc, if_true, Option.bind_eq_bind, Option.bind_some]
      exact ih _ hc
    · have := le_foldl_digits (10 * n + digitValue c) cs
      have hm : ¬ cs.foldl (fun n c => 10 * n + digitValue c) (10 * n + digitValue c) < bound := by
        omega
      simp [appendDigit?, hc, hm]

/-- A number of 64 bits. Zeros may stand in front of it, and a plus sign in front of these. -/
def readUInt64? (s : List Char) : Option UInt64 :=
  let digits := match s with
    | '+' :: cs => cs
    | cs => cs
  if digits ≠ [] ∧ digits.all isDigit then (natBelow? UInt64.size digits).map UInt64.ofNat
  else none

def dropSign : List Char → List Char
  | '+' :: cs | '-' :: cs => cs
  | cs => cs

/-- Whether a text is a number with perhaps a sign, a point and an exponent, or one that is not
finite, by its name in any case. -/
def isNumber (s : List Char) : Bool :=
  let s := dropSign s
  if ["inf", "infinity", "nan"].contains (String.ofList (s.map Char.toLower)) then true
  else
    let isPart := fun c => isDigit c || c = '.'
    let part := s.takeWhile isPart
    part.any isDigit && part.count '.' ≤ 1 && match s.dropWhile isPart with
      | [] => true
      | c :: cs =>
        let digits := dropSign cs
        (c = 'e' || c = 'E') && digits ≠ [] && digits.all isDigit

end SpanWire.Text
