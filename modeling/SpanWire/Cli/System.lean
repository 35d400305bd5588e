import SpanWire.Cli.Files

/-!
What a program asks of the system it runs on. One program serves the system that is there and a
system that is only described, of whose runs something can be said.
-/
namespace SpanWire.Cli

structure System (m : Type → Type) where
  environment : String → m (Option String)
  stdin : m ByteArray
  readFile : String → m (Except Files.ReadError ByteArray)
  writeFile : String → ByteArray → m (Except SystemError Unit)
  print : ByteArray → m Unit
  report : String → m Unit

/-- What a run finds around it. -/
structure Surroundings where
  environment : String → Option String
  stdin : ByteArray
  files : Files

/-- The surroundings in the course of a run, with what was printed and reported so far. -/
structure Scene extends Surroundings where
  stdout : ByteArray := .empty
  stderr : String := ""

/-- A system that is only described. -/
def System.described : System (StateM Scene) where
  environment name := return (← get).environment name
  stdin := return (← get).stdin
  readFile path := return (← get).files.read path
  writeFile path content := modifyGet fun s =>
    match s.files.write path content with
    | .ok files => (.ok (), { s with files })
    | .error why => (.error why, s)
  print content := modify fun s => { s with stdout := s.stdout ++ content }
  report text := modify fun s => { s with stderr := s.stderr ++ text }

structure Outcome where
  exitCode : Nat
  stdout : ByteArray
  stderr : String
  files : Files

/-- What is left of a scene when a program has ended there with an exit code. -/
def Outcome.ofEnd (e : Nat × Scene) : Outcome :=
  ⟨e.1, e.2.stdout, e.2.stderr, e.2.files⟩

def Surroundings.after (w : Surroundings) (program : StateM Scene Nat) : Outcome :=
  .ofEnd (program.run { w with })

end SpanWire.Cli
