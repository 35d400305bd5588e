import SpanWire.Cli.Log.Directive
import SpanWire.Text.Parts

/-! The filter that says which records appear. -/
namespace SpanWire.Cli.Log

abbrev Filter := List Directive

/-- The directives as they are written, with commas between them. -/
def writtenDirectives (setting : Option String) : List String :=
  (Text.parts ',' (setting.getD "")).filter (!·.isEmpty)

/-- Directives that are not understood are passed over. Without any, errors are shown. -/
def Filter.read (setting : Option String) : Filter :=
  match (writtenDirectives setting).filterMap (Directive.read · |>.toOption) with
  | [] => [⟨none, .all, Level.error.rank⟩]
  | directives => directives

/-- A line for each directive that is not understood. -/
def complaints (setting : Option String) : String :=
  String.join <| (writtenDirectives setting).map fun text =>
    match Directive.read text with
    | .ok _ => ""
    | .error why => s!"ignoring `{text}`: {why.message}\n"

/-- The one field that records have. -/
def textField : String := "message"

def Scope.field? : Scope → Option String
  | field name => some name
  | _ => none

/-- Whether some record can be meant. -/
def Scope.isOpen : Scope → Bool
  | all | field _ => true
  | task => false

/-- Whether the records here are meant. -/
def Scope.covers : Scope → Bool
  | all => true
  | field name => name = textField
  | task => false

namespace Directive

def concerns (d : Directive) (target : String) : Bool :=
  d.target.all fun t => t.toList.isPrefixOf target.toList

/-- How much of the targets it concerns a directive names. -/
def targetLength (d : Directive) : Nat :=
  (d.target.getD "").length

/-- Whether a directive says more than another about the targets that both concern. -/
def isFiner (d e : Directive) : Bool :=
  ((compare d.targetLength e.targetLength).then (compare d.scope.field? e.scope.field?)).isGT

/-- The finest of some directives, of equals the last. -/
def finest? (directives : List Directive) : Option Directive :=
  directives.foldl (fun best d => if best.any (·.isFiner d) then best else some d) none

end Directive

namespace Filter

/-- The highest rank shown for a target, among scopes that count. -/
def rankFor (filter : Filter) (counts : Scope → Bool) (target : String) : Nat :=
  match Directive.finest? (filter.filter fun d => d.concerns target && counts d.scope) with
  | some d => d.rank
  | none => 0

def shows (filter : Filter) (r : Record) : Bool :=
  r.level.rank ≤ filter.rankFor Scope.covers r.target

/-- Whether a record would be asked for before it is known which fields it has. -/
def listens (filter : Filter) (level : Level) (target : String) : Bool :=
  level.rank ≤ filter.rankFor Scope.isOpen target

def keep (filter : Filter) (records : List Record) : List Record :=
  records.filter filter.shows

end Filter

end SpanWire.Cli.Log
