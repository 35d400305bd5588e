import SpanWire.Cli.Program
import SpanWire.Proofs.Cli.Arguments

/-!
The program on a system that is only described. Its effects are followed once here; everything else
about a run is said of the outcome. Whatever the arguments ask for, the log is opened first; only a
run reads or writes anything.
-/
namespace SpanWire.Cli

/-- What a run asks for in its log. -/
def Surroundings.filter (w : Surroundings) : Log.Filter :=
  Log.Filter.read (w.environment logVariable)

/-- The scene once something is reported, with nothing printed yet. -/
def Surroundings.reported (w : Surroundings) (text : String) : Scene :=
  { w with stderr := text }

/-- What is said about the setting of the log. -/
def Surroundings.complaints (w : Surroundings) : String :=
  Log.complaints (w.environment logVariable)

theorem Surroundings.after_openLog (w : Surroundings) (program : Log.Filter → StateM Scene Nat) :
    w.after (System.described.openLog >>= program) =
      .ofEnd ((program w.filter).run (w.reported w.complaints)) := by
  have hempty : "" ++ w.complaints = w.complaints := String.empty_append
  rw [← hempty]
  rfl

namespace System

theorem run_source (w : Surroundings) (text : String) (input : Option String) :
    (described.source input).run (w.reported text) = (w.source input, w.reported text) := by
  cases input <;> rfl

/-- What is printed first is all that was printed. -/
theorem run_print (w : Surroundings) (text : String) (content : ByteArray) :
    (described.print content).run (w.reported text) =
      ((), { w.reported text with stdout := content }) := by
  have hempty : ByteArray.empty ++ content = content := ByteArray.empty_append
  change ((), { w.reported text with stdout := ByteArray.empty ++ content }) = _
  rw [hempty]

theorem run_deliver_stdout (w : Surroundings) (text : String) (content : ByteArray) :
    (described.deliver none content).run (w.reported text) =
      (0, { w.reported text with stdout := content }) := by
  rw [deliver, StateT.run_bind, run_print]
  rfl

variable (s : Scene)

theorem run_writeFile (path : String) (content : ByteArray) :
    (described.writeFile path content).run s =
      match s.files.write path content with
      | .ok files => (.ok (), { s with files })
      | .error why => (.error why, s) :=
  rfl

theorem run_deliver_file {path : String} {content : ByteArray} {files : Files}
    (h : s.files.write path content = .ok files) :
    (described.deliver (some path) content).run s = (0, { s with files }) := by
  rw [deliver, StateT.run_bind, run_writeFile, h]
  rfl

theorem run_deliver_refused {path : String} {content : ByteArray} {why : SystemError}
    (h : s.files.write path content = .error why) :
    (described.deliver (some path) content).run s =
      (1, { s with stderr := s.stderr ++ (Failure.cannotWrite path why).message }) := by
  rw [deliver, StateT.run_bind, run_writeFile, h]
  rfl

end System

namespace Arguments

variable {a : Arguments} {w : Surroundings}

theorem run_execute (a : Arguments) (w : Surroundings) (filter : Log.Filter) (text : String) :
    (a.execute .described filter).run (w.reported text) =
      match w.source a.command.input >>= a.replyTo filter with
      | .error failure => (1, w.reported (text ++ failure.message))
      | .ok reply => (System.described.deliver a.command.output reply.output).run
          (w.reported (text ++ logText reply.log)) := by
  rw [execute, StateT.run_bind, System.run_source]
  change StateT.run (match w.source a.command.input >>= a.replyTo filter with
    | .error failure => _ | .ok reply => _) (w.reported text) = _
  cases w.source a.command.input >>= a.replyTo filter <;> rfl

/-- A run without a reply to its input says why, and leaves all else as it is. -/
theorem run_of_no_reply {failure : Failure}
    (h : w.source a.command.input >>= a.replyTo w.filter = .error failure) :
    a.run w = ⟨1, .empty, w.complaints ++ failure.message, w.files⟩ := by
  rw [run, Surroundings.after_openLog, run_execute, h]
  rfl

/-- A run with a reply puts it in the log first, and then hands over its output. -/
theorem run_of_reply {reply : Reply}
    (h : w.source a.command.input >>= a.replyTo w.filter = .ok reply) :
    a.run w = .ofEnd ((System.described.deliver a.command.output reply.output).run
      (w.reported (w.complaints ++ logText reply.log))) := by
  rw [run, Surroundings.after_openLog, run_execute, h]

end Arguments

/-- What the program leaves behind. Help is printed, a misuse is reported, and neither touches a
file; in all other cases there is a run. -/
theorem respond_eq (manual : Manual) (arguments : List String) (w : Surroundings) :
    respond manual arguments w =
      match Request.parse (w.environment thresholdVariable) arguments with
      | none => ⟨2, .empty, w.complaints ++ manual.misuse arguments, w.files⟩
      | some (.help topic) =>
        ⟨0, (manual.help topic (w.environment thresholdVariable)).toByteArray, w.complaints,
          w.files⟩
      | some (.run a) => a.run w := by
  rw [respond, execute, Surroundings.after_openLog]
  change Outcome.ofEnd ((serve .described manual arguments (w.environment thresholdVariable)
    w.filter (Request.parse (w.environment thresholdVariable) arguments)).run
      (w.reported w.complaints)) = _
  cases Request.parse (w.environment thresholdVariable) arguments with
  | none => rfl
  | some request =>
    cases request with
    | help topic =>
      dsimp only [serve]
      rw [StateT.run_bind, System.run_print]
      rfl
    | run a =>
      change _ = a.run w
      rw [Arguments.run, Surroundings.after_openLog]
      rfl

/-- A run that was asked for is what the program does. -/
theorem respond_of_run {manual : Manual} {arguments : List String} {w : Surroundings} {o : Outcome}
    (h : run arguments w = some o) : respond manual arguments w = o := by
  obtain ⟨a, hparse, rfl⟩ := Option.map_eq_some_iff.1 h
  rw [respond_eq, Arguments.parse_eq_some.1 hparse]

end SpanWire.Cli
