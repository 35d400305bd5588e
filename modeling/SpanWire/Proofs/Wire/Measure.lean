import SpanWire.Proofs.Wire.Codec
import SpanWire.Proofs.Wire.Warning

/-!
The size of a span in one pass. Portions are added up one after the other, and each that may be huge
is looked at before it is added. What the pass warns of has no way back into what it adds up, and so
none into what is written by any operation that follows.
-/
namespace SpanWire

namespace Wire

/-- What is added to a size in one go. -/
inductive Portion
  | plain (size : Nat)
  | growing (field : HugeField) (size : Nat)

namespace Portion

def size : Portion → Nat
  | plain size => size
  | growing _ size => size

def growing? : Portion → Option (HugeField × Nat)
  | plain _ => none
  | growing field size => some (field, size)

end Portion

/-- Portions with their size in total and with those among them that may be huge. -/
structure Portions (ps : List Portion) (size : Nat) (growing : List (HugeField × Nat)) : Prop where
  size : total (ps.map Portion.size) = size
  growing : ps.filterMap Portion.growing? = growing

namespace Portions

theorem nil : Portions [] 0 [] :=
  ⟨rfl, rfl⟩

theorem plain (n : Nat) : Portions [.plain n] n [] :=
  ⟨Nat.add_zero n, rfl⟩

theorem growing_single (field : HugeField) (n : Nat) :
    Portions [.growing field n] n [(field, n)] :=
  ⟨Nat.add_zero n, rfl⟩

theorem append {ps qs : List Portion} {m n : Nat} {as bs : List (HugeField × Nat)}
    (hp : Portions ps m as) (hq : Portions qs n bs) : Portions (ps ++ qs) (m + n) (as ++ bs) where
  size := by
    have htotal : ∀ ms ns : List Nat, total (ms ++ ns) = total ms + total ns := by
      intro ms ns
      induction ms with
      | nil => exact (Nat.zero_add _).symm
      | cons k ms ih =>
        change k + total (ms ++ ns) = k + total ms + total ns
        rw [ih, Nat.add_assoc]
    rw [List.map_append, htotal, hp.size, hq.size]
  growing := by rw [List.filterMap_append, hp.growing, hq.growing]

theorem plain_if (present : Bool) (n : Nat) :
    Portions (if present then [.plain n] else []) (if present then n else 0) [] := by
  cases present with
  | true => exact plain n
  | false => exact nil

theorem plain_unless (absent : Prop) [Decidable absent] (n : Nat) :
    Portions (if absent then [] else [.plain n]) (if absent then 0 else n) [] := by
  split
  · exact nil
  · exact plain n

theorem map {α : Type} (field : HugeField) (size : α → Nat) (xs : List α) :
    Portions (xs.map fun x => .growing field (size x)) (total (xs.map size))
      (xs.map fun x => (field, size x)) := by
  induction xs with
  | nil => exact nil
  | cons x xs ih => exact append (growing_single field (size x)) ih

end Portions

end Wire

open Wire

/-- The portions of a span in the order in which they are added up. -/
def Span.portions (s : Span) : List Portion :=
  [Portion.plain (2 + s.traceId.byteLength)] ++
  (if s.parentId.isSome then [Portion.plain 10] else []) ++
  [Portion.plain 10] ++
  (if s.kind.isSome then [Portion.plain 2] else []) ++
  (match s.name with
    | none => []
    | some name => [Portion.growing .name (textFieldSize name)]) ++
  (if s.timestamp = 0 then [] else [Portion.plain 9]) ++
  (if s.duration = 0 then [] else [Portion.plain (1 + varintSize s.duration)]) ++
  [Portion.growing .localServiceName (endpointFieldSize s.localEndpoint)] ++
  [Portion.growing .remoteServiceName (endpointFieldSize s.remoteEndpoint)] ++
  s.annotations.map (fun a => Portion.growing .event a.fieldSize) ++
  s.tags.entries.map (fun e => Portion.growing .tag (tagFieldSize e.1 e.2)) ++
  (if s.debug then [Portion.plain 2] else []) ++
  (if s.shared then [Portion.plain 2] else [])

theorem Span.portions_spec (s : Span) : Portions s.portions s.size s.growingFields := by
  rw [growingFields_eq, portions, size]
  iterate 12 refine .append ?_ ?_
  · exact .plain _
  · exact .plain_if _ _
  · exact .plain _
  · exact .plain_if _ _
  · cases s.name with
    | none => exact .nil
    | some name => exact .growing_single .name (textFieldSize name)
  · exact .plain_unless _ _
  · exact .plain_unless _ _
  · exact .growing_single _ _
  · exact .growing_single _ _
  · exact .map .event Annotation.fieldSize s.annotations
  · exact .map .tag (fun e : String × String => tagFieldSize e.1 e.2) s.tags.entries
  · exact .plain_if _ _
  · exact .plain_if _ _

namespace Wire.Codec

/-- Adds a portion to the size so far, after a warning if it is huge and someone listens. -/
def addPortion (c : Codec) (s : Span) (r : Warned Nat) : Portion → Warned Nat
  | .plain size => ⟨r.value + size, r.warnings⟩
  | .growing field size =>
    if c.settings.largeFieldThreshold.toNat < size ∧ c.listening then
      ⟨r.value + size, r.warnings ++ [⟨s.traceId, s.id, field, size⟩]⟩
    else ⟨r.value + size, r.warnings⟩

def measure (c : Codec) (s : Span) : Warned Nat :=
  s.portions.foldl (c.addPortion s) ⟨0, []⟩

/-- Whatever is warned of, the size grows by the portion. -/
theorem addPortion_value (c : Codec) (s : Span) (r : Warned Nat) (p : Portion) :
    (c.addPortion s r p).value = r.value + p.size := by
  cases p with
  | plain size => rfl
  | growing field size =>
    rw [addPortion]
    split <;> rfl

theorem foldl_addPortion_value (c : Codec) (s : Span) (r : Warned Nat) (ps : List Portion) :
    (ps.foldl (c.addPortion s) r).value = r.value + total (ps.map Portion.size) := by
  induction ps generalizing r with
  | nil => rfl
  | cons p ps ih =>
    rw [List.foldl_cons, ih, addPortion_value, Nat.add_assoc]
    rfl

/-- The warnings of fields that may be huge. -/
def warningsOn (c : Codec) (s : Span) (growing : List (HugeField × Nat)) : List Warning :=
  if c.listening then
    (growing.filter (c.settings.largeFieldThreshold.toNat < ·.2)).map fun g =>
      ⟨s.traceId, s.id, g.1, g.2⟩
  else []

theorem foldl_addPortion_warnings (c : Codec) (s : Span) (r : Warned Nat) (ps : List Portion) :
    (ps.foldl (c.addPortion s) r).warnings =
      r.warnings ++ c.warningsOn s (ps.filterMap Portion.growing?) := by
  induction ps generalizing r with
  | nil => cases h : c.listening <;> simp [warningsOn, h]
  | cons p ps ih =>
    rw [List.foldl_cons, ih]
    cases p with
    | plain size => rfl
    | growing field size =>
      cases h : c.listening <;>
        by_cases hsize : c.settings.largeFieldThreshold.toNat < size <;>
        simp [addPortion, warningsOn, Portion.growing?, h, hsize]

/-- The pass gives the size and its warnings. -/
theorem measure_eq (c : Codec) (s : Span) : c.measure s = c.size s := by
  have hportions := s.portions_spec
  have hvalue := c.foldl_addPortion_value s ⟨0, []⟩ s.portions
  have hwarnings := c.foldl_addPortion_warnings s ⟨0, []⟩ s.portions
  rw [hportions.size, Nat.zero_add] at hvalue
  rw [hportions.growing, List.nil_append] at hwarnings
  change s.portions.foldl (c.addPortion s) ⟨0, []⟩ = ⟨s.size, c.warningsOn s s.growingFields⟩
  rw [← hvalue, ← hwarnings]

/-- The size that a codec works with is what the pass adds up, whatever the pass warns of. -/
theorem size_value_eq (c d : Codec) (s : Span) : (c.size s).value = (d.size s).value := by
  rw [← measure_eq, ← measure_eq, measure, measure, foldl_addPortion_value, foldl_addPortion_value]

theorem encode_value_eq (c d : Codec) (s : Span) : (c.encode s).value = (d.encode s).value := by
  simp only [encode, size_value_eq c d]

theorem encodeList_value_eq (c d : Codec) (spans : List Span) :
    (c.encodeList spans).value = (d.encodeList spans).value := by
  have hlengths : (spans.map c.size).map (·.value) = (spans.map d.size).map (·.value) := by
    rw [List.map_map, List.map_map]
    exact List.map_congr_left fun s _ => size_value_eq c d s
  rw [encodeList, encodeList, hlengths]

theorem writeList_value_eq (c d : Codec) (b : Buffer) (spans : List Span) :
    (c.writeList b spans).value = (d.writeList b spans).value := by
  induction spans generalizing b with
  | nil => rfl
  | cons s spans ih =>
    rw [writeList, writeList, size_value_eq c d]
    cases s.writeFrame (d.size s).value b with
    | done b => exact ih b
    | overrun b => rfl

/-- Performs operations one after the other on the shared buffer, also behind one that ran over the
end: the answers, each with the buffer as it is then. -/
def performEach (c : Codec) (out : Array UInt8) : List Op → List (Answer × Array UInt8)
  | [] => []
  | op :: ops =>
    let r := (c.perform out op).value
    r :: c.performEach r.2 ops

/-- But for the threshold itself, no answer and no byte of the buffer depends on the settings or on
whether someone listens. -/
theorem perform_value_eq (c d : Codec) (out : Array UInt8) {op : Op} (h : op ≠ .threshold) :
    (c.perform out op).value = (d.perform out op).value := by
  cases op with
  | threshold => contradiction
  | size s => simp only [perform, size_value_eq c d]
  | encode s => simp only [perform, encode_value_eq c d]
  | encodeList spans => simp only [perform, encodeList_value_eq c d]
  | write s pos => rfl
  | writeList spans pos =>
    rw [perform_writeList (writeList_value_eq c d ⟨out, pos⟩ spans), perform_writeList rfl]

theorem performEach_eq (c d : Codec) (out : Array UInt8) {ops : List Op} (h : .threshold ∉ ops) :
    c.performEach out ops = d.performEach out ops := by
  induction ops generalizing out with
  | nil => rfl
  | cons op ops ih =>
    rw [List.mem_cons, not_or] at h
    rw [performEach, performEach, perform_value_eq c d out (Ne.symm h.1), ih _ h.2]

end Wire.Codec

end SpanWire
