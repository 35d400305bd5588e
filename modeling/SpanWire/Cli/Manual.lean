import SpanWire.Cli.Arguments

/-! The texts that explain the command line. No run depends on their wording. -/
namespace SpanWire.Cli

/-- Help tells the threshold of the environment. -/
structure Manual where
  help : Topic → Option String → String
  misuse : List String → String

def Verb.name : Verb → String
  | .encode => "encode"
  | .size => "size"

def Verb.about : Verb → String
  | .encode => "Encode JSON spans as a proto3 ListOfSpans message"
  | .size => "Print the encoded size of each span"

def Switch.about : Switch → String
  | threshold => "Encoded field size above which a warning is logged"
  | input => "JSON file holding a span or an array of spans (stdin when omitted)"
  | output => "Write to this file instead of stdout"
  | hex => "Emit lowercase hex instead of raw bytes"
  | help => "Print help"

/-- A switch as it is given, with what it is for on a line of its own. -/
def Switch.entry (ambient : Option String) (s : Switch) : String :=
  let short := match s.shortName? with
    | some name => s!"-{name}, "
    | none => "    "
  let value := if s.takesValue then
      " <" ++ s.longName.map (fun c => if c = '-' then '_' else c.toUpper) ++ ">"
    else ""
  let current := ambient.getD ""
  let standard : Wire.Settings := {}
  let sources := if s = .threshold then
      s!" [env: {thresholdVariable}={current}] [default: {standard.largeFieldThreshold}]"
    else ""
  s!"  {short}--{s.longName}{value}\n          {s.about}{sources}\n"

def Topic.about : Topic → String
  | program => "Encode spans to proto3 ListOfSpans bytes"
  | verb v => v.about
  | help => "Print this message or the help of the given subcommand(s)"

def Topic.usage : Topic → String
  | program => "hindsight-encode [OPTIONS] <COMMAND>"
  | verb v => s!"hindsight-encode {v.name} [OPTIONS]"
  | help => "hindsight-encode help [COMMAND]..."

/-- What the words or the switches are that may follow. -/
def Topic.entries (ambient : Option String) : Topic → String
  | program =>
    let commands := [(Verb.encode.name, Verb.encode.about), (Verb.size.name, Verb.size.about),
      ("help", help.about)]
    "\nCommands:\n" ++ String.join (commands.map fun c => s!"  {c.1}  {c.2}\n") ++
      "\nOptions:\n" ++ String.join ([Switch.threshold, .help].map (Switch.entry ambient))
  | verb v => "\nOptions:\n" ++ String.join (v.switches.map (Switch.entry ambient))
  | help => ""

def Manual.standard : Manual where
  help topic ambient := s!"{topic.about}\n\nUsage: {topic.usage}\n{topic.entries ambient}"
  misuse _ := s!"error: the arguments are not understood\n\nUsage: {Topic.program.usage}\n"

end SpanWire.Cli
