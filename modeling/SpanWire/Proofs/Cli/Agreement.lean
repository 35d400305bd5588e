import SpanWire.Proofs.Cli.Program
import SpanWire.Proofs.Id
import SpanWire.Proofs.Wire.Decode

/-!
The two commands agree: what one prints about the spans of an input can be read off the bytes that
the other prints for the same input.
-/
namespace SpanWire

open Wire

namespace Wire

/-- The bytes of an identifier, if its field with the number stands first, and what follows. -/
def takeId (number : Nat) (bs : List UInt8) : Option (List UInt8 × List UInt8) :=
  match takeField bs with
  | some (⟨n, .delimited id⟩, rest) => if n = number then some (id, rest) else none
  | _ => none

/-- The bytes of the trace and the span identifier in an encoded span, read off its first fields.
The identifier of a parent may stand between them. -/
def storedIds? (payload : List UInt8) : Option (List UInt8 × List UInt8) := do
  let (traceId, rest) ← takeId 1 payload
  let (id, _) ← takeId 3 ((takeId 2 rest).elim rest (·.2))
  return (traceId, id)

variable {digits : List Hex.Digit}

theorem takeId_idField (hn : digits.length < 256) {number : UInt8} (hnumber : number.toNat < 16)
    (wanted : Nat) (rest : List UInt8) :
    takeId wanted (encodings (idField number digits) ++ rest) =
      if number.toNat = wanted then some (Hex.toBytes digits, rest) else none := by
  have hspells := spells_idField hnumber hn
  have hbytes := hspells.bytes
  have hfits := hspells.fits _ List.mem_cons_self
  rw [List.flatMap_singleton] at hbytes
  rw [hbytes, takeId, takeField_append hfits]

end Wire

namespace Span

/-- The identifier of the parent is passed over, whether there is one or not. -/
theorem takeId_parentWrites (s : Span) {rest : List UInt8} (h : takeId 2 rest = none) :
    (takeId 2 (encodings s.parentWrites ++ rest)).elim
      (encodings s.parentWrites ++ rest) (·.2) = rest := by
  unfold parentWrites
  cases s.parentId with
  | none =>
    rw [encodings_nil, List.nil_append, h]
    rfl
  | some id =>
    rw [takeId_idField id.length_digits_lt (by decide)]
    rfl

/-- The identifiers of a span stand in its encoding, however long the rest may be. -/
theorem storedIds?_encode (s : Span) :
    storedIds? s.encode.toList = some (s.traceId.toBytes, s.id.toBytes) := by
  obtain ⟨rest, hwrites⟩ := s.exists_writes
  have hnone : takeId 2 (encodings (idField 3 s.id.digits) ++ encodings rest) = none :=
    takeId_idField s.id.length_digits_lt (by decide) 2 _
  have hid : takeId 3 (encodings (idField 3 s.id.digits) ++ encodings rest) =
      some (s.id.toBytes, encodings rest) :=
    takeId_idField s.id.length_digits_lt (by decide) 3 _
  rw [encode_eq, List.toList_toArray, hwrites, encodings_append, encodings_append,
    encodings_append, storedIds?, takeId_idField s.traceId.length_digits_lt (by decide)]
  change (takeId 3 (Option.elim _ _ _) >>= _) = _
  rw [s.takeId_parentWrites hnone, hid]
  rfl

end Span

namespace Cli

/-- The line about an encoded span, read off its bytes. -/
def lineOfPayload? (payload : List UInt8) : Option String :=
  (storedIds? payload).map fun ids =>
    s!"{Hex.spell (Hex.ofBytes ids.1)}/{Hex.spell (Hex.ofBytes ids.2)}\t{payload.length}\n"

theorem lineOfPayload?_encode (s : Span) :
    lineOfPayload? s.encode.toList = some (sizeLine s s.encode.size) := by
  have htrace : Hex.ofBytes s.traceId.toBytes = s.traceId.digits := by
    have hwidth := s.traceId.width
    exact Hex.ofBytes_toBytes (by omega)
  have hid : Hex.ofBytes s.id.toBytes = s.id.digits := by
    have hwidth := s.id.width
    exact Hex.ofBytes_toBytes (by omega)
  rw [lineOfPayload?, s.storedIds?_encode, Option.map_some, htrace, hid, Array.length_toList]
  rfl

/-- What is printed about spans and what is printed of them, for one another. -/
structure Agree (spans : List Span) (sizes encoded : ByteArray) : Prop where
  /-- Every span is a frame of its own: a key, the length of the payload, and the payload. -/
  frames : encoded.data.toList = spans.flatMap fun s =>
    0x0a :: (varint (UInt64.ofNat s.encode.size) ++ s.encode.toList)
  /-- Every span has a line with its identifiers and the length of its payload. -/
  lines : sizes = (String.join (spans.map fun s =>
    s!"{s.traceId}/{s.id}\t{s.encode.size}\n")).toByteArray
  /-- The line is what the payload says itself. -/
  payloads : ∀ s ∈ spans,
    lineOfPayload? s.encode.toList = some s!"{s.traceId}/{s.id}\t{s.encode.size}\n"
  length : encoded.size = total (spans.map fun s =>
    1 + varintSize (UInt64.ofNat s.encode.size) + s.encode.size)
  /-- Whoever knows the wire format finds the payloads. -/
  fields : (∀ s ∈ spans, s.encode.size < 2 ^ 64) →
    readFields encoded.data.toList = some (spans.map fun s => ⟨1, .delimited s.encode.toList⟩)

theorem agree (spans : List Span) :
    Agree spans (String.join (spans.map fun s => sizeLine s s.size)).toByteArray
      ⟨encodeList spans⟩ where
  frames := by
    have hframes : encodings (spans.flatMap Span.frameWrites) =
        spans.flatMap fun s => encodings s.frameWrites :=
      List.flatMap_assoc
    rw [encodeList_eq, List.toList_toArray, hframes]
    simp only [Span.encodings_frameWrites_eq, Span.size_encode]
  lines := by
    simp only [Span.size_encode]
    rfl
  payloads s _ := lineOfPayload?_encode s
  length := by
    change (encodeList spans).size = _
    rw [size_encodeList, framedSize, List.map_map]
    simp only [Span.size_encode]
    rfl
  fields h := by
    have hsizes : ∀ s ∈ spans, s.size < 2 ^ 64 := by
      intro s hs
      rw [← s.size_encode]
      exact h s hs
    have hspells := spells_frames hsizes
    rw [encodeList_eq, List.toList_toArray, hspells.bytes, readFields_flatMap hspells.fits]
    refine congrArg some (List.map_congr_left fun s hs => ?_)
    rw [messagePayload, ← (Span.writes_spells (Span.partsFit (hsizes s hs))).bytes, Span.encode_eq,
      List.toList_toArray]

/-- For one input either both commands fail, and print nothing, or both give what they have to say
about the same spans. -/
theorem size_agrees_encode {w : Surroundings} {sizeArguments encodeArguments : List String}
    {a b : Arguments} {input : Option String}
    (ha : Arguments.parse w.environment sizeArguments = some a) (hsize : a.command = .size input)
    (hb : Arguments.parse w.environment encodeArguments = some b)
    (hencode : b.command = .encode input none false) :
    ∃ sized encoded, run sizeArguments w = some sized ∧ run encodeArguments w = some encoded ∧
      ((∃ failure, w.spans input = .error failure ∧
          sized.exitCode = 1 ∧ sized.stdout = .empty ∧
          encoded.exitCode = 1 ∧ encoded.stdout = .empty) ∨
        ∃ spans, w.spans input = .ok spans ∧
          sized.exitCode = 0 ∧ encoded.exitCode = 0 ∧
          Agree spans sized.stdout encoded.stdout) := by
  have hsized : run sizeArguments w = some (a.run w) := by rw [run, ha, Option.map_some]
  have hencoded : run encodeArguments w = some (b.run w) := by rw [run, hb, Option.map_some]
  have hainput : a.command.input = input := by rw [hsize, Command.input]
  have hbinput : b.command.input = input := by rw [hencode, Command.input]
  refine ⟨_, _, hsized, hencoded, ?_⟩
  cases hspans : w.spans input with
  | error failure =>
    left
    rw [Arguments.run_of_error (hainput ▸ hspans), Arguments.run_of_error (hbinput ▸ hspans)]
    exact ⟨failure, rfl, rfl, rfl, rfl, rfl⟩
  | ok spans =>
    right
    have haout : a.command.output = none := by rw [hsize, Command.output]
    have hbout : b.command.output = none := by rw [hencode, Command.output]
    obtain ⟨stderr, hasucceed⟩ := Arguments.run_to_stdout (hainput ▸ hspans) haout
    obtain ⟨stderr', hbsucceed⟩ := Arguments.run_to_stdout (hbinput ▸ hspans) hbout
    rw [hasucceed, hbsucceed, Arguments.output_reply_size hsize,
      Arguments.output_reply_encode hencode]
    exact ⟨spans, rfl, rfl, rfl, agree spans⟩

/-- Two spans, and an input that is no JSON. -/
theorem size_agrees_encode_sample :
    (let w := Surroundings.ofStdin (renderList [.sample, .sample]).toByteArray
      ∃ sized encoded, run ["size"] w = some sized ∧ run ["encode"] w = some encoded ∧
        sized.exitCode = 0 ∧ encoded.exitCode = 0 ∧
        Agree [.sample, .sample] sized.stdout encoded.stdout) ∧
    (let w := Surroundings.ofStdin "spans".toByteArray
      ∃ sized encoded, run ["size"] w = some sized ∧ run ["encode"] w = some encoded ∧
        sized.exitCode = 1 ∧ sized.stdout = .empty ∧
        encoded.exitCode = 1 ∧ encoded.stdout = .empty) := by
  have hsize : Arguments.parse (fun _ => none) ["size"] = some ⟨.size none, {}⟩ := by decide
  have hencode : Arguments.parse (fun _ => none) ["encode"] =
      some ⟨.encode none none false, {}⟩ := by
    decide
  constructor
  · intro w
    have hnormal : ∀ s ∈ [Span.sample, Span.sample], s.Normal := by
      intro s hs
      obtain rfl : s = .sample := by simpa using hs
      exact Span.normal_sample
    have hsource : w.source none = .ok (renderList [.sample, .sample]).toByteArray :=
      Surroundings.source_ofStdin _
    have hspans : w.spans none = .ok [.sample, .sample] := by
      rw [w.spans_of_source hsource, readSpans_of_rendered hnormal (.inl rfl)]
      rfl
    obtain ⟨sized, encoded, hsized, hencoded, hagree⟩ :=
      size_agrees_encode (w := w) hsize rfl hencode rfl
    rcases hagree with ⟨failure, hfailure, -⟩ | ⟨spans, hok, hexit, hexit', hagree⟩
    · rw [hspans] at hfailure
      cases hfailure
    · obtain rfl : [.sample, .sample] = spans := Except.ok.inj (hspans.symm.trans hok)
      exact ⟨sized, encoded, hsized, hencoded, hexit, hexit', hagree⟩
  · intro w
    have hbad : readSpans "spans" = .error .malformed := by cbv
    have hsource : w.source none = .ok "spans".toByteArray := Surroundings.source_ofStdin _
    have hspans : w.spans none = .error (.badInput .malformed) := by
      rw [w.spans_of_source hsource, hbad]
      rfl
    obtain ⟨sized, encoded, hsized, hencoded, hagree⟩ :=
      size_agrees_encode (w := w) hsize rfl hencode rfl
    rcases hagree with ⟨failure, -, hfail⟩ | ⟨spans, hok, -⟩
    · exact ⟨sized, encoded, hsized, hencoded, hfail⟩
    · rw [hspans] at hok
      cases hok

end Cli

end SpanWire
