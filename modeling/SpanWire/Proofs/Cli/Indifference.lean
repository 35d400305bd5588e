import SpanWire.Proofs.Cli.Arguments
import SpanWire.Proofs.Cli.Program
import SpanWire.Proofs.Wire.Measure

/-!
What is warned of, and whether anyone sees it, leaves no trace in what is encoded: neither in a run
of operations on a codec nor in a run of the program.
-/
namespace SpanWire.Cli

/-- What a run leaves behind apart from its messages. -/
def Outcome.data (o : Outcome) : Nat × ByteArray × Files :=
  (o.exitCode, o.stdout, o.files)

/-- Surroundings with the same input and the same files. Of the environment nothing needs to be the
same, as long as the threshold in it is one, or is as wrong in both. -/
structure SameButLogging (w w' : Surroundings) : Prop where
  stdin : w.stdin = w'.stdin
  files : w.files = w'.files
  threshold : SameThreshold (w.environment thresholdVariable) (w'.environment thresholdVariable)

theorem Surroundings.spans_congr {w w' : Surroundings} (hstdin : w.stdin = w'.stdin)
    (hfiles : w.files = w'.files) (input : Option String) : w.spans input = w'.spans input := by
  unfold spans
  cases input with
  | none => rw [source, source, hstdin]
  | some path => rw [source, source, hfiles]

namespace Arguments

variable {a b : Arguments} {w w' : Surroundings}

theorem output_reply_congr (h : a.command = b.command) (filter filter' : Log.Filter)
    (spans : List Span) : (a.reply filter spans).output = (b.reply filter' spans).output := by
  cases hcommand : a.command with
  | encode input output hex =>
    rw [output_reply_encode hcommand, output_reply_encode (h.symm.trans hcommand)]
  | size input =>
    rw [output_reply_size hcommand, output_reply_size (h.symm.trans hcommand)]

/-- Wherever an output goes, what was said before makes no difference. -/
theorem data_deliver_congr (hfiles : w.files = w'.files) (output : Option String)
    (content : ByteArray) (log log' : String) :
    (Outcome.ofEnd ((System.described.deliver output content).run (w.reported log))).data =
      (Outcome.ofEnd ((System.described.deliver output content).run (w'.reported log'))).data := by
  cases output with
  | none =>
    rw [System.run_deliver_stdout, System.run_deliver_stdout]
    exact congrArg (fun files => (0, content, files)) hfiles
  | some path =>
    cases hwrite : w.files.write path content with
    | ok files =>
      rw [System.run_deliver_file (w.reported _) hwrite,
        System.run_deliver_file (w'.reported _) (hfiles ▸ hwrite)]
      rfl
    | error why =>
      rw [System.run_deliver_refused (w.reported _) hwrite,
        System.run_deliver_refused (w'.reported _) (hfiles ▸ hwrite)]
      exact congrArg (fun files => (1, ByteArray.empty, files)) hfiles

/-- The command, the input and the files decide what a run leaves behind. -/
theorem data_run_congr (hcommand : a.command = b.command) (hstdin : w.stdin = w'.stdin)
    (hfiles : w.files = w'.files) : (a.run w).data = (b.run w').data := by
  have hsame : w.spans a.command.input = w'.spans b.command.input := by
    rw [hcommand]
    exact Surroundings.spans_congr hstdin hfiles b.command.input
  cases hspans : w'.spans b.command.input with
  | error failure =>
    rw [run_of_error hspans, run_of_error (hsame.trans hspans)]
    exact congrArg (fun files => (1, ByteArray.empty, files)) hfiles
  | ok spans =>
    have houtput := output_reply_congr hcommand w.filter w'.filter spans
    rw [run_of_spans hspans, run_of_spans (hsame.trans hspans), houtput, hcommand]
    exact data_deliver_congr hfiles _ _ _ _

end Arguments

theorem data_run_rel {arguments arguments' : List String} {w w' : Surroundings}
    (h : Option.Rel (fun a b => a.command = b.command)
      (Arguments.parse w.environment arguments) (Arguments.parse w'.environment arguments'))
    (hstdin : w.stdin = w'.stdin) (hfiles : w.files = w'.files) :
    (run arguments w).map Outcome.data = (run arguments' w').map Outcome.data := by
  unfold run
  generalize Arguments.parse w.environment arguments = a at h ⊢
  generalize Arguments.parse w'.environment arguments' = b at h ⊢
  cases h with
  | none => simp only [Option.map_none]
  | some hcommand => exact congrArg some (Arguments.data_run_congr hcommand hstdin hfiles)

/-- Sizes are what a pass adds up that warns on its way. Operations on a codec give the same answers
and leave the same bytes whatever its threshold is and whoever listens; and the program leaves the
same behind whatever is to be logged and whatever threshold it is given: for command lines and
surroundings that differ in nothing else, whether or not they are understood, and for any others
that are understood as the same command on the same input. -/
theorem warnings_leave_no_trace :
    (∀ (c : Wire.Codec) (s : Span), c.size s = c.measure s) ∧
    (∀ (c d : Wire.Codec) (out : Array UInt8) (ops : List Wire.Codec.Op), .threshold ∉ ops →
      c.performEach out ops = d.performEach out ops) ∧
    (∀ (w w' : Surroundings) (arguments arguments' : List String), SameButLogging w w' →
      SameButThreshold arguments arguments' →
      (run arguments w).map Outcome.data = (run arguments' w').map Outcome.data) ∧
    ∀ (w w' : Surroundings) (arguments arguments' : List String) (a b : Arguments),
      Arguments.parse w.environment arguments = some a →
      Arguments.parse w'.environment arguments' = some b →
      a.command = b.command → w.stdin = w'.stdin → w.files = w'.files →
      (run arguments w).map Outcome.data = (run arguments' w').map Outcome.data := by
  refine ⟨?measured, ?operations, ?runs, ?commands⟩
  case measured => exact fun c s => (c.measure_eq s).symm
  case operations => exact fun c d out ops h => c.performEach_eq d out h
  case runs =>
    intro w w' arguments arguments' hw harguments
    exact data_run_rel (Arguments.parse_rel hw.threshold harguments) hw.stdin hw.files
  case commands =>
    intro w w' arguments arguments' a b ha hb hcommand hstdin hfiles
    refine data_run_rel ?_ hstdin hfiles
    rw [ha, hb]
    exact .some hcommand

/-- Operations of which one runs over the end, with and without a listener; and runs with a log and
without one, with thresholds on the command line, in the environment, or nowhere. -/
theorem warnings_leave_no_trace_sample :
    let ops : List Wire.Codec.Op :=
      [.size .sample, .writeList [.sample, .sample] 5, .encode .sample]
    let quiet := Surroundings.ofStdin (renderList [.sample]).toByteArray
    let environment := fun name => if name = logVariable then some "warn" else some "9"
    let loud : Surroundings := { quiet with environment }
    Wire.Codec.performEach ⟨⟨8⟩, true⟩ (Array.replicate 150 1) ops =
      Wire.Codec.performEach ⟨⟨1000⟩, false⟩ (Array.replicate 150 1) ops ∧
    (run ["--large-field-threshold", "8", "encode", "-o", "spans"] loud).isSome = true ∧
    (run ["--large-field-threshold", "8", "encode", "-o", "spans"] loud).map Outcome.data =
      (run ["--large-field-threshold", "+1000", "encode", "-o", "spans"] quiet).map Outcome.data ∧
    (run ["size", "--large-field-threshold=8"] loud).map Outcome.data =
      (run ["size"] quiet).map Outcome.data := by
  intro ops quiet environment loud
  obtain ⟨-, hoperations, hruns, hcommands⟩ := warnings_leave_no_trace
  have height : IsThreshold "8" := by decide
  have hnine : IsThreshold "9" := by decide
  have hthousand : IsThreshold "+1000" := by decide
  have hlogging (w : Surroundings) (h : w.environment thresholdVariable = none) :
      SameButLogging { w with environment } w := by
    refine ⟨rfl, rfl, .inr ⟨fun x hx => ?_, by simp [h]⟩⟩
    obtain rfl : "9" = x := Option.some.inj hx
    exact hnine
  have hsame : SameButLogging loud quiet := hlogging quiet rfl
  have hparse : Arguments.parse loud.environment
      ["--large-field-threshold", "8", "encode", "-o", "spans"] =
        some ⟨.encode none (some "spans") false, ⟨8⟩⟩ := by
    decide +kernel
  refine ⟨hoperations _ _ _ _ (by simp [ops]), ?_, ?_, ?_⟩
  · rw [run, hparse, Option.map_some, Option.isSome_some]
  · exact hruns loud quiet _ _ hsame (.apart height hthousand (.refl _))
  · exact hcommands loud quiet _ _ ⟨.size none, ⟨8⟩⟩ ⟨.size none, {}⟩ (by decide +kernel)
      (by decide) rfl hsame.stdin hsame.files

end SpanWire.Cli
