import SpanWire.Proofs.Cli.Program
import SpanWire.Proofs.Text.Utf8

/-!
A run that fails changes nothing: all of the input is read and understood before anything is
printed or written, and a file that cannot be opened keeps its content. So a file can be encoded
into itself.
-/
namespace SpanWire.Cli

theorem Surroundings.source_some_eq_ok {w : Surroundings} {path : String} {content : ByteArray} :
    w.source (some path) = .ok content ↔ w.files.read path = .ok content := by
  rw [source, Json.mapError_eq_ok]

namespace Arguments

/-- Why a run fails: its input cannot be opened or read, or is no text, or not the JSON of spans; or
the file for its output cannot be opened, whatever is to be written to it. -/
inductive Fails (a : Arguments) (w : Surroundings) : Failure → Prop
  | cannotOpen {path : String} {why : SystemError} :
    a.command.input = some path → w.files.read path = .error (.atOpen why) →
    Fails a w (.cannotOpen path why)
  | cannotRead {path : String} {why : SystemError} :
    a.command.input = some path → w.files.read path = .error (.atRead why) →
    Fails a w (.cannotRead path why)
  | fileNotText {path : String} {content : ByteArray} :
    a.command.input = some path → w.files.read path = .ok content →
    String.fromUTF8? content = none → Fails a w (.fileNotText path)
  | stdinNotText :
    a.command.input = none → String.fromUTF8? w.stdin = none → Fails a w .stdinNotText
  | badInput {text : String} {why : InputError} :
    w.source a.command.input = .ok text.toByteArray → readSpans text = .error why →
    Fails a w (.badInput why)
  | cannotWrite {text path : String} {spans : List Span} {why : SystemError} :
    w.source a.command.input = .ok text.toByteArray → readSpans text = .ok spans →
    a.command.output = some path → (∀ content, w.files.write path content = .error why) →
    Fails a w (.cannotWrite path why)

variable {a : Arguments} {w : Surroundings}

theorem fails_of_source {failure : Failure} (h : w.source a.command.input = .error failure) :
    a.Fails w failure := by
  cases hinput : a.command.input with
  | none =>
    rw [hinput] at h
    contradiction
  | some path =>
    rw [hinput] at h
    obtain ⟨why, hread, rfl⟩ := Json.mapError_eq_error.1 h
    cases why with
    | atOpen why => exact .cannotOpen hinput hread
    | atRead why => exact .cannotRead hinput hread

/-- The ways in which no spans are found in an input. -/
theorem fails_of_spans {failure : Failure} (h : w.spans a.command.input = .error failure) :
    a.Fails w failure := by
  rw [Surroundings.spans] at h
  cases hsource : w.source a.command.input with
  | error why =>
    rw [hsource] at h
    obtain rfl : why = failure := Except.error.inj h
    exact fails_of_source hsource
  | ok content =>
    rw [hsource] at h
    change spansOfContent a.command.input content = .error failure at h
    unfold spansOfContent at h
    cases htext : String.fromUTF8? content with
    | none =>
      rw [htext] at h
      obtain rfl := Except.error.inj h
      cases hinput : a.command.input with
      | none =>
        rw [hinput] at hsource
        obtain rfl := Except.ok.inj hsource
        exact .stdinNotText hinput htext
      | some path =>
        rw [hinput] at hsource
        exact .fileNotText hinput (w.source_some_eq_ok.1 hsource) htext
    | some text =>
      rw [htext] at h
      obtain rfl := Text.eq_of_fromUTF8? htext
      obtain ⟨why, hwhy, rfl⟩ := Json.mapError_eq_error.1 h
      exact .badInput hsource hwhy

/-- Spans that are found are those of a text. -/
theorem exists_text {input : Option String} {spans : List Span} (h : w.spans input = .ok spans) :
    ∃ text : String, w.source input = .ok text.toByteArray ∧ readSpans text = .ok spans := by
  obtain ⟨content, hsource, h⟩ := Json.bind_eq_ok.1 h
  unfold spansOfContent at h
  cases htext : String.fromUTF8? content with
  | none =>
    rw [htext] at h
    contradiction
  | some text =>
    rw [htext] at h
    obtain rfl := Text.eq_of_fromUTF8? htext
    exact ⟨text, hsource, Json.mapError_eq_ok.1 h⟩

theorem spans_of_text {input : Option String} {text : String} {spans : List Span}
    (hsource : w.source input = .ok text.toByteArray) (hspans : readSpans text = .ok spans) :
    w.spans input = .ok spans := by
  rw [w.spans_of_source hsource, hspans]
  rfl

/-- Without spans there is nothing to write; with them, it may be that nothing can be written. -/
theorem Fails.cases {failure : Failure} (h : a.Fails w failure) :
    w.spans a.command.input = .error failure ∨
    ∃ spans path why, failure = .cannotWrite path why ∧ w.spans a.command.input = .ok spans ∧
      a.command.output = some path ∧ ∀ content, w.files.write path content = .error why := by
  cases h with
  | cannotOpen hinput hread | cannotRead hinput hread =>
    left
    rw [Surroundings.spans, hinput, Surroundings.source, hread]
    rfl
  | @fileNotText path content hinput hread htext =>
    left
    rw [Surroundings.spans, hinput, w.source_some_eq_ok.2 hread]
    change spansOfContent (some path) content = _
    rw [spansOfContent, htext]
  | stdinNotText hinput htext =>
    left
    rw [Surroundings.spans, hinput]
    change spansOfContent none w.stdin = _
    rw [spansOfContent, htext]
  | badInput hsource hspans =>
    left
    rw [w.spans_of_source hsource, hspans]
    rfl
  | cannotWrite hsource hspans houtput hwrite =>
    exact .inr ⟨_, _, _, rfl, spans_of_text hsource hspans, houtput, hwrite⟩

/-- A run that fails says why, and leaves all else as it is. -/
theorem run_of_fails {failure : Failure} (h : a.Fails w failure) :
    ∃ log, a.run w = ⟨1, .empty, log ++ failure.message, w.files⟩ := by
  rcases h.cases with hspans | ⟨spans, path, why, rfl, hspans, houtput, hwrite⟩
  · exact ⟨_, run_of_error hspans⟩
  · exact run_refused hspans houtput (hwrite _)

theorem run_of_not_fails (h : ∀ failure, ¬ a.Fails w failure) : (a.run w).exitCode = 0 := by
  cases hspans : w.spans a.command.input with
  | error failure => exact absurd (fails_of_spans hspans) (h failure)
  | ok spans =>
    cases houtput : a.command.output with
    | none =>
      obtain ⟨stderr, hrun⟩ := run_to_stdout hspans houtput
      rw [hrun]
    | some path =>
      cases hwrite : w.files.write path (a.reply w.filter spans).output with
      | ok files =>
        obtain ⟨stderr, hrun⟩ := run_to_file hspans houtput hwrite
        rw [hrun]
      | error why =>
        obtain ⟨text, hsource, htext⟩ := exists_text hspans
        exact absurd (.cannotWrite hsource htext houtput (Files.write_error hwrite)) (h _)

theorem exitCode_ne_zero_iff : (a.run w).exitCode ≠ 0 ↔ ∃ failure, a.Fails w failure := by
  constructor
  · intro hexit
    by_contra hnone
    exact hexit (run_of_not_fails (not_exists.1 hnone))
  · rintro ⟨failure, hfails⟩
    obtain ⟨log, hrun⟩ := run_of_fails hfails
    rw [hrun]
    exact Nat.one_ne_zero

/-- A file that is encoded into itself. -/
theorem run_in_place {input output : String} {hex : Bool} {way : List String}
    (hcommand : a.command = .encode (some input) (some output) hex)
    (houtput : w.files.Leads output way) (hexit : (a.run w).exitCode = 0) :
    ∃ text spans stderr, w.files.read input = .ok text.toByteArray ∧
      readSpans text = .ok spans ∧
      a.run w = ⟨0, .empty, stderr, w.files.put way (encodedOutput hex spans)⟩ := by
  have hin : a.command.input = some input := by rw [hcommand, Command.input]
  have hout : a.command.output = some output := by rw [hcommand, Command.output]
  cases hspans : w.spans a.command.input with
  | error failure =>
    exact absurd hexit (exitCode_ne_zero_iff.2 ⟨failure, fails_of_spans hspans⟩)
  | ok spans =>
    obtain ⟨text, hsource, htext⟩ := exists_text hspans
    rw [hin] at hsource
    have hwrite := houtput.write (a.reply w.filter spans).output
    cases hlock : (w.files.lock way).toWrite with
    | error why =>
      rw [hlock] at hwrite
      obtain ⟨log, hrun⟩ := run_refused hspans hout hwrite
      rw [hrun] at hexit
      contradiction
    | ok _ =>
      rw [hlock] at hwrite
      obtain ⟨stderr, hrun⟩ := run_to_file hspans hout hwrite
      rw [output_reply_encode hcommand] at hrun
      exact ⟨text, spans, stderr, w.source_some_eq_ok.1 hsource, htext, hrun⟩

end Arguments

/-- A run fails exactly for one of the reasons there are, and then it has printed nothing and every
file is as it was. Where a file is encoded into itself, it has the encoding of what it had before,
by whatever path it is read, and all other files are as they were. -/
theorem run_all_or_nothing {w : Surroundings} {arguments : List String} {a : Arguments}
    (hparse : Arguments.parse w.environment arguments = some a) :
    ∃ o, run arguments w = some o ∧
      (o.exitCode ≠ 0 ↔ ∃ failure, a.Fails w failure) ∧
      (o.exitCode ≠ 0 → o.stdout = .empty ∧ o.files = w.files) ∧
      ∀ input output hex way, a.command = .encode (some input) (some output) hex →
        w.files.Leads input way → w.files.Leads output way → o.exitCode = 0 →
        ∃ text spans, w.files.get? way = some text.toByteArray ∧ readSpans text = .ok spans ∧
          o.stdout = .empty ∧
          o.files.read input = .ok (Arguments.encodedOutput hex spans) ∧
          o.files.read output = .ok (Arguments.encodedOutput hex spans) ∧
          ∀ other, other ≠ way → o.files.get? other = w.files.get? other := by
  have hrun : run arguments w = some (a.run w) := by rw [run, hparse, Option.map_some]
  refine ⟨_, hrun, Arguments.exitCode_ne_zero_iff, fun hexit => ?failed, ?inPlace⟩
  case failed =>
    obtain ⟨failure, hfails⟩ := Arguments.exitCode_ne_zero_iff.1 hexit
    obtain ⟨log, hfailed⟩ := Arguments.run_of_fails hfails
    rw [hfailed]
    exact ⟨rfl, rfl⟩
  case inPlace =>
    intro input output hex way hcommand hinput houtput hexit
    obtain ⟨text, spans, stderr, hheld, hspans, hdone⟩ :=
      Arguments.run_in_place hcommand houtput hexit
    obtain ⟨hopen, hcontent⟩ := hinput.read.1 hheld
    rw [hdone]
    refine ⟨text, spans, hcontent, hspans, rfl, hinput.read_put hopen _, houtput.read_put hopen _,
      fun other hother => ?_⟩
    exact Files.get?_put_of_ne w.files hother _

/-- An input of which only the last span is wrong, so that an older output stays; and a file that is
encoded into itself by another path to it. -/
theorem run_all_or_nothing_sample :
    (let text := "[\x7b\"traceId\":\"1\",\"id\":\"2\"\x7d,\x7b\"traceId\":\"1\",\"id\":\"0\"\x7d]"
      let files : Files := ⟨[(["in"], text.toByteArray), (["out"], "old".toByteArray)]⟩
      ∃ o, run ["encode", "-i", "in", "-o", "out"] ⟨fun _ => none, .empty, files⟩ = some o ∧
        o.exitCode ≠ 0 ∧ o.stdout = .empty ∧ o.files = files) ∧
    (let files : Files := ⟨[(["spans"], (renderList [.sample]).toByteArray)]⟩
      ∃ o, run ["encode", "-i", "spans", "-o", "./spans"] ⟨fun _ => none, .empty, files⟩ = some o ∧
        o.exitCode = 0 ∧ o.stdout = .empty ∧
        o.files.read "spans" = .ok (Arguments.encodedOutput false [.sample])) := by
  constructor
  · intro text files
    have hparse : Arguments.parse (fun _ => none) ["encode", "-i", "in", "-o", "out"] =
        some ⟨.encode (some "in") (some "out") false, {}⟩ := by
      decide
    have hwrong : readSpans text = .error .mismatch := by decide +kernel
    obtain ⟨o, hrun, hexit, hfailed, -⟩ :=
      run_all_or_nothing (w := ⟨fun _ => none, .empty, files⟩) hparse
    have hne : o.exitCode ≠ 0 := hexit.2 ⟨_, .badInput rfl hwrong⟩
    exact ⟨o, hrun, hne, hfailed hne⟩
  · intro files
    have hparse : Arguments.parse (fun _ => none) ["encode", "-i", "spans", "-o", "./spans"] =
        some ⟨.encode (some "spans") (some "./spans") false, {}⟩ := by
      decide
    have hleads (content : ByteArray) : (⟨[(["spans"], content)]⟩ : Files).Leads "spans" ["spans"] ∧
        (⟨[(["spans"], content)]⟩ : Files).Leads "./spans" ["spans"] := ⟨rfl, rfl⟩
    have hheld (content : ByteArray) :
        (⟨[(["spans"], content)]⟩ : Files).get? ["spans"] = some content := rfl
    have hread : readSpans (renderList [.sample]) = .ok [.sample] :=
      readSpans_of_rendered (List.forall_mem_singleton.2 Span.normal_sample) (.inl rfl)
    obtain ⟨hinput, houtput⟩ := hleads (renderList [.sample]).toByteArray
    obtain ⟨o, hrun, hexit, -, hplace⟩ :=
      run_all_or_nothing (w := ⟨fun _ => none, .empty, files⟩) hparse
    have hzero : o.exitCode = 0 := by
      have hcontent := hinput.read.2 ⟨rfl, hheld _⟩
      have hspans : Surroundings.spans ⟨fun _ => none, .empty, files⟩ (some "spans") =
          .ok [.sample] :=
        Arguments.spans_of_text (Surroundings.source_some_eq_ok.2 hcontent) hread
      obtain ⟨stderr, hwritten⟩ := Arguments.run_to_file
        (a := ⟨.encode (some "spans") (some "./spans") false, {}⟩) hspans rfl (houtput.write _)
      rw [run, hparse, Option.map_some, hwritten] at hrun
      exact congrArg Outcome.exitCode (Option.some.inj hrun).symm
    obtain ⟨text, spans, htext, hspans, hstdout, hdone, -⟩ :=
      hplace "spans" "./spans" false ["spans"] rfl hinput houtput hzero
    have hsame := Option.some.inj ((hheld _).symm.trans htext)
    obtain rfl : renderList [.sample] = text := String.toByteArray_inj.1 hsame
    obtain rfl : [.sample] = spans := Except.ok.inj (hread.symm.trans hspans)
    exact ⟨o, hrun, hzero, hstdout, hdone⟩

end SpanWire.Cli
