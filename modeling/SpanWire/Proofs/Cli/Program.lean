import SpanWire.Proofs.Cli.Execution
import SpanWire.Proofs.Cli.Files
import SpanWire.Proofs.Cli.Input
import SpanWire.Proofs.Hex
import SpanWire.Proofs.Wire.Codec

/-!
What a run leaves behind, given the spans of its input. Both commands take their input in the same
way; they differ only in what they make of the spans.
-/
namespace SpanWire.Cli

/-- The spans that a content gives, or why it gives none. -/
def spansOfContent (input : Option String) (content : ByteArray) : Except Failure (List Span) :=
  match String.fromUTF8? content with
  | none => .error <| match input with
    | some path => .fileNotText path
    | none => .stdinNotText
  | some text => (readSpans text).mapError .badInput

/-- The spans of the file that is to be read, or of standard input. -/
def Surroundings.spans (w : Surroundings) (input : Option String) : Except Failure (List Span) :=
  w.source input >>= spansOfContent input

theorem Surroundings.spans_of_source {w : Surroundings} {input : Option String} {text : String}
    (h : w.source input = .ok text.toByteArray) :
    w.spans input = (readSpans text).mapError .badInput := by
  rw [Surroundings.spans, h]
  change spansOfContent input text.toByteArray = _
  unfold spansOfContent
  rw [Text.fromUTF8?_toByteArray]

namespace Arguments

theorem replyTo_eq (a : Arguments) (filter : Log.Filter) (content : ByteArray) :
    a.replyTo filter content =
      (spansOfContent a.command.input content).map (a.reply filter) := by
  unfold replyTo spansOfContent
  cases String.fromUTF8? content with
  | none => rfl
  | some text =>
    dsimp only
    cases readSpans text <;> rfl

/-- The reply to the input, as far as it gives spans. -/
theorem source_bind_replyTo (a : Arguments) (w : Surroundings) (filter : Log.Filter) :
    w.source a.command.input >>= a.replyTo filter =
      (w.spans a.command.input).map (a.reply filter) := by
  rw [Surroundings.spans]
  cases w.source a.command.input with
  | error failure => rfl
  | ok content => exact a.replyTo_eq filter content

variable {a : Arguments} {w : Surroundings} {spans : List Span}

/-- Without spans a run says why, and leaves all else as it is. -/
theorem run_of_error {failure : Failure} (h : w.spans a.command.input = .error failure) :
    a.run w = ⟨1, .empty, w.complaints ++ failure.message, w.files⟩ :=
  run_of_no_reply (by rw [source_bind_replyTo, h]; rfl)

/-- With spans a run says what there is to say about them, and hands over their output. -/
theorem run_of_spans (h : w.spans a.command.input = .ok spans) :
    let reply := a.reply w.filter spans
    a.run w = .ofEnd ((System.described.deliver a.command.output reply.output).run
      (w.reported (w.complaints ++ logText reply.log))) :=
  run_of_reply (by rw [source_bind_replyTo, h]; rfl)

theorem run_to_stdout (h : w.spans a.command.input = .ok spans) (hout : a.command.output = none) :
    ∃ stderr, a.run w = ⟨0, (a.reply w.filter spans).output, stderr, w.files⟩ := by
  rw [run_of_spans h, hout, System.run_deliver_stdout]
  exact ⟨_, rfl⟩

theorem run_to_file {path : String} {files : Files} (h : w.spans a.command.input = .ok spans)
    (hout : a.command.output = some path)
    (hwrite : w.files.write path (a.reply w.filter spans).output = .ok files) :
    ∃ stderr, a.run w = ⟨0, .empty, stderr, files⟩ := by
  rw [run_of_spans h, hout, System.run_deliver_file (w.reported _) hwrite]
  exact ⟨_, rfl⟩

/-- Where the file for the output cannot be opened, a run says why, and leaves all else as it is. -/
theorem run_refused {path : String} {why : SystemError} (h : w.spans a.command.input = .ok spans)
    (hout : a.command.output = some path)
    (hwrite : w.files.write path (a.reply w.filter spans).output = .error why) :
    ∃ log, a.run w = ⟨1, .empty, log ++ (Failure.cannotWrite path why).message, w.files⟩ := by
  rw [run_of_spans h, hout, System.run_deliver_refused (w.reported _) hwrite]
  exact ⟨_, rfl⟩

/-- The bytes of the encoding, or their digits on a line. -/
def encodedOutput (hex : Bool) (spans : List Span) : ByteArray :=
  if hex then hexLine (encodeList spans) else ⟨encodeList spans⟩

theorem output_reply_encode {input output : Option String} {hex : Bool}
    (h : a.command = .encode input output hex) (filter : Log.Filter) (spans : List Span) :
    (a.reply filter spans).output = encodedOutput hex spans := by
  have hbytes := (a.codec filter).encodeList_value spans
  rw [reply, h]
  dsimp only
  rw [hbytes]
  rfl

theorem output_reply_size {input : Option String} (h : a.command = .size input)
    (filter : Log.Filter) (spans : List Span) :
    (a.reply filter spans).output =
      (String.join (spans.map fun s => sizeLine s s.size)).toByteArray := by
  rw [reply, h]
  dsimp only
  rw [List.zipWith_map_right, List.zipWith_self]
  rfl

end Arguments

/-- The text that spans are written as, all in an array or one alone. -/
theorem readSpans_of_rendered {spans : List Span} (hnormal : ∀ s ∈ spans, s.Normal) {text : String}
    (htext : text = renderList spans ∨ ∃ s, spans = [s] ∧ text = s.render) :
    readSpans text = .ok spans := by
  rcases htext with rfl | ⟨s, rfl, rfl⟩
  · refine (listsSpans_renderList hnormal).readSpans_eq fun item hitem => ?_
    obtain ⟨s, -, rfl⟩ := List.mem_map.1 hitem
    exact knownText_render s
  · have hspan : Span.ofText s.render = .ok s := by
      rw [Span.ofText_render, Span.normalize_eq_iff.2 (hnormal s List.mem_cons_self)]
    exact readSpans_single hspan (knownText_render s)

/-- The line that is printed in place of bytes has their digits and an end of line. -/
theorem decodePairs?_dropLast_hexLine (bytes : List UInt8) :
    Hex.decodePairs? (Hex.spell (Hex.ofBytes bytes) ++ "\n").toList.dropLast = some bytes := by
  have hline : (Hex.spell (Hex.ofBytes bytes) ++ "\n").toList =
      (Hex.ofBytes bytes).map Hex.Digit.toChar ++ ['\n'] := by
    rw [String.toList_append, Hex.toList_spell]
    rfl
  rw [hline, List.dropLast_concat, Hex.decodePairs?_map_toChar, Hex.toBytes_ofBytes]

/-- Spans that were written as texts are encoded. The input is an array of them or one span alone;
the encoding, or a line with its digits, goes to standard output or to a file. -/
theorem encode_delivers {w : Surroundings} {arguments : List String} {a : Arguments}
    {input output : Option String} {hex : Bool} {spans : List Span} {text : String}
    (hparse : Arguments.parse w.environment arguments = some a)
    (hcommand : a.command = .encode input output hex)
    (hsource : w.source input = .ok text.toByteArray)
    (hnormal : ∀ s ∈ spans, s.Normal)
    (htext : text = renderList spans ∨ ∃ s, spans = [s] ∧ text = s.render) :
    let line := Hex.spell (Hex.ofBytes (encodeList spans).toList) ++ "\n"
    let content : ByteArray := if hex then line.toByteArray else ⟨encodeList spans⟩
    Hex.decodePairs? line.toList.dropLast = some (encodeList spans).toList ∧
    (output = none →
      ∃ o, run arguments w = some o ∧ o.exitCode = 0 ∧ o.stdout = content ∧ o.files = w.files) ∧
    ∀ path files, output = some path → w.files.write path content = .ok files →
      ∃ o, run arguments w = some o ∧ o.exitCode = 0 ∧ o.stdout = .empty ∧ o.files = files ∧
        files.read path = .ok content := by
  intro line content
  have hrun : run arguments w = some (a.run w) := by rw [run, hparse, Option.map_some]
  have hinput : a.command.input = input := by rw [hcommand, Command.input]
  have houtput : a.command.output = output := by rw [hcommand, Command.output]
  have hspans : w.spans a.command.input = .ok spans := by
    rw [hinput, w.spans_of_source hsource, readSpans_of_rendered hnormal htext]
    rfl
  have hcontent : (a.reply w.filter spans).output = content :=
    Arguments.output_reply_encode hcommand w.filter spans
  refine ⟨decodePairs?_dropLast_hexLine _, fun hnone => ?_, fun path files hsome hwrite => ?_⟩
  · obtain ⟨stderr, hstdout⟩ := Arguments.run_to_stdout hspans (houtput.trans hnone)
    rw [hcontent] at hstdout
    exact ⟨_, hrun, by rw [hstdout], by rw [hstdout], by rw [hstdout]⟩
  · rw [← hcontent] at hwrite
    obtain ⟨stderr, hfile⟩ := Arguments.run_to_file hspans (houtput.trans hsome) hwrite
    rw [hcontent] at hwrite
    exact ⟨_, hrun, by rw [hfile], by rw [hfile], by rw [hfile], Files.read_write hwrite⟩

/-- A place without files and variables, with a content on standard input. -/
def Surroundings.ofStdin (content : ByteArray) : Surroundings :=
  ⟨fun _ => none, content, ⟨[]⟩⟩

theorem Surroundings.source_ofStdin (content : ByteArray) :
    (ofStdin content).source none = .ok content :=
  rfl

/-- One span, from standard input to standard output, as a line of digits, and to a file. -/
theorem encode_delivers_sample :
    let line := Hex.spell (Hex.ofBytes (encodeList [.sample]).toList) ++ "\n"
    let w := Surroundings.ofStdin (renderList [.sample]).toByteArray
    (∃ o, run ["encode"] w = some o ∧ o.exitCode = 0 ∧ o.stdout = ⟨encodeList [.sample]⟩ ∧
      o.files = w.files) ∧
    (∃ o, run ["encode", "--hex"] w = some o ∧ o.exitCode = 0 ∧ o.stdout = line.toByteArray ∧
      o.files = w.files) ∧
    ∃ o, run ["encode", "--output", "spans"] w = some o ∧ o.exitCode = 0 ∧ o.stdout = .empty ∧
      o.files = ⟨[(["spans"], ⟨encodeList [.sample]⟩)]⟩ ∧
      o.files.read "spans" = .ok ⟨encodeList [.sample]⟩ := by
  intro line w
  have hsource : w.source none = .ok (renderList [.sample]).toByteArray :=
    Surroundings.source_ofStdin _
  have hnormal : ∀ s ∈ [Span.sample], s.Normal :=
    List.forall_mem_singleton.2 Span.normal_sample
  have hplain : Arguments.parse w.environment ["encode"] = some ⟨.encode none none false, {}⟩ := by
    decide
  have hhex : Arguments.parse w.environment ["encode", "--hex"] =
      some ⟨.encode none none true, {}⟩ := by
    decide
  have hfile : Arguments.parse w.environment ["encode", "--output", "spans"] =
      some ⟨.encode none (some "spans") false, {}⟩ := by
    decide
  have hwrite (content : ByteArray) : w.files.write "spans" content =
      .ok ⟨[(["spans"], content)]⟩ := rfl
  refine ⟨?plain, ?hex, ?file⟩
  case plain => exact (encode_delivers hplain rfl hsource hnormal (.inl rfl)).2.1 rfl
  case hex => exact (encode_delivers hhex rfl hsource hnormal (.inl rfl)).2.1 rfl
  case file =>
    obtain ⟨-, -, hdelivers⟩ := encode_delivers hfile rfl hsource hnormal (.inl rfl)
    obtain ⟨o, hrun, hexit, hstdout, hfiles, hread⟩ := hdelivers "spans" _ rfl (hwrite _)
    exact ⟨o, hrun, hexit, hstdout, hfiles, hfiles ▸ hread⟩

end SpanWire.Cli
