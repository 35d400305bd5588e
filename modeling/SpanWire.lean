import SpanWire.Address
import SpanWire.Address.Text
import SpanWire.Cli.Arguments
import SpanWire.Cli.Files
import SpanWire.Cli.Input
import SpanWire.Cli.Log
import SpanWire.Cli.Log.Directive
import SpanWire.Cli.Log.Filter
import SpanWire.Cli.Manual
import SpanWire.Cli.Program
import SpanWire.Cli.System
import SpanWire.Endpoint
import SpanWire.Endpoint.Json
import SpanWire.Hex
import SpanWire.Id
import SpanWire.Id.Json
import SpanWire.Json.Binary64
import SpanWire.Json.Draft
import SpanWire.Json.Number
import SpanWire.Json.Problem
import SpanWire.Json.Quotation
import SpanWire.Json.Reader
import SpanWire.Json.Schema
import SpanWire.Json.Token
import SpanWire.Json.Value
import SpanWire.Kind
import SpanWire.Kind.Json
import SpanWire.Main
import SpanWire.Pattern
import SpanWire.Pattern.Atom
import SpanWire.Pattern.CharSet
import SpanWire.Pattern.Flags
import SpanWire.Pattern.Height
import SpanWire.Span
import SpanWire.Span.Json
import SpanWire.Tags
import SpanWire.Text.Alphanumeric
import SpanWire.Text.Blank
import SpanWire.Text.Decimal
import SpanWire.Text.Parts
import SpanWire.Text.Position
import SpanWire.Text.Quoted
import SpanWire.Text.Ranges
import SpanWire.Text.Unprintable
import SpanWire.Text.Utf8
import SpanWire.Wire.Buffer
import SpanWire.Wire.Codec
import SpanWire.Wire.Encode
import SpanWire.Wire.Settings
import SpanWire.Wire.Size
import SpanWire.Wire.Varint
import SpanWire.Wire.Warning
import SpanWire.Proofs.LastGiven
import SpanWire.Proofs.Wire.Buffer
import SpanWire.Proofs.Wire.Size
import SpanWire.Proofs.Hex
import SpanWire.Proofs.Wire.Extent
import SpanWire.Proofs.Wire.Field
import SpanWire.Proofs.Wire.Layout
import SpanWire.Proofs.Wire.Frames
import SpanWire.Proofs.Wire.Message
import SpanWire.Proofs.Wire.Decode
import SpanWire.Proofs.Wire.Canonical
import SpanWire.Proofs.Wire.Injectivity
import SpanWire.Proofs.Wire.Codec
import SpanWire.Proofs.Wire.Overrun
import SpanWire.Proofs.Wire.Warning
import SpanWire.Proofs.Wire.ListWarning
import SpanWire.Proofs.Wire.Measure
import SpanWire.Proofs.Text.Digits
import SpanWire.Proofs.Json.Scan
import SpanWire.Proofs.Json.Document
import SpanWire.Proofs.Json.Reader
import SpanWire.Proofs.Json.Schema
import SpanWire.Proofs.Json.Sound
import SpanWire.Proofs.Json.Token
import SpanWire.Proofs.Json.Framing
import SpanWire.Proofs.Json.Array
import SpanWire.Proofs.Json.Whole
import SpanWire.Proofs.Address
import SpanWire.Proofs.Id
import SpanWire.Proofs.Hex.Number
import SpanWire.Proofs.Id.Grammar
import SpanWire.Proofs.Id.Bytes
import SpanWire.Proofs.Id.Order
import SpanWire.Proofs.Endpoint
import SpanWire.Proofs.Endpoint.Steps
import SpanWire.Proofs.Endpoint.Json
import SpanWire.Proofs.Span.Json
import SpanWire.Proofs.Span.Sound
import SpanWire.Proofs.Cli.Input
import SpanWire.Proofs.Cli.Execution
import SpanWire.Proofs.Cli.Files
import SpanWire.Proofs.Cli.Program
import SpanWire.Proofs.Cli.Agreement
import SpanWire.Proofs.Cli.Arguments
import SpanWire.Proofs.Cli.Indifference
import SpanWire.Proofs.Cli.Failure
import SpanWire.Proofs.Json.Object
import SpanWire.Proofs.Json.Members
import SpanWire.Proofs.Json.Value
import SpanWire.Proofs.Json.Strings
import SpanWire.Proofs.Span.Members
import SpanWire.Proofs.Json.Items
import SpanWire.Proofs.Span.Forms
import SpanWire.Proofs.Endpoint.AddressText
import SpanWire.Proofs.Span.Rendering
import SpanWire.Proofs.Wire.Run
import SpanWire.Proofs.Wire.Shortest
import SpanWire.Proofs.Wire.Lengths
import SpanWire.Proofs.Wire.Overflow
import SpanWire.Proofs.Span.Steps
import SpanWire.Proofs.Span.Tags
