import BinaryRecord.ByteOrder
import BinaryRecord.Code.Basic
import BinaryRecord.Code.Encoding
import BinaryRecord.Code.Output
import BinaryRecord.Command.Arguments
import BinaryRecord.Command.Basic
import BinaryRecord.Command.Calcsize
import BinaryRecord.Command.Failure
import BinaryRecord.Command.Host
import BinaryRecord.Command.Pack
import BinaryRecord.Command.Path
import BinaryRecord.Command.Session
import BinaryRecord.Command.Unpack
import BinaryRecord.Command.Workspace
import BinaryRecord.Error
import BinaryRecord.Floating.Binary
import BinaryRecord.Floating.Decimal
import BinaryRecord.Floating.Grid
import BinaryRecord.Floating.Shortest
import BinaryRecord.Json.Basic
import BinaryRecord.Json.Parse
import BinaryRecord.Json.Print
import BinaryRecord.Json.Token
import BinaryRecord.Json.Value
import BinaryRecord.Layout.Basic
import BinaryRecord.Layout.Cache
import BinaryRecord.Layout.Format
import BinaryRecord.Layout.Group
import BinaryRecord.Layout.Pack
import BinaryRecord.Layout.Parse
import BinaryRecord.Layout.Unpack
import BinaryRecord.Main
import BinaryRecord.Probe
import BinaryRecord.Proofs.Cache.Call
import BinaryRecord.Proofs.Cache.Errors
import BinaryRecord.Proofs.Cache.Occupancy
import BinaryRecord.Proofs.Cache.Sharing
import BinaryRecord.Proofs.Cache.Transparent
import BinaryRecord.Proofs.Checked.Basic
import BinaryRecord.Proofs.Checked.Code
import BinaryRecord.Proofs.Checked.Format
import BinaryRecord.Proofs.Checked.Group
import BinaryRecord.Proofs.Checked.Pack
import BinaryRecord.Proofs.Checked.Parse
import BinaryRecord.Proofs.Checked.Unpack
import BinaryRecord.Proofs.Code.Canonical
import BinaryRecord.Proofs.Code.Float32
import BinaryRecord.Proofs.Code.Integer
import BinaryRecord.Proofs.Code.Normal
import BinaryRecord.Proofs.Code.Output
import BinaryRecord.Proofs.Code.Stored
import BinaryRecord.Proofs.Command.Files
import BinaryRecord.Proofs.Command.Listing
import BinaryRecord.Proofs.Command.Outcome
import BinaryRecord.Proofs.Command.Run
import BinaryRecord.Proofs.Command.Shortfall
import BinaryRecord.Proofs.Command.Truncation
import BinaryRecord.Proofs.Except
import BinaryRecord.Proofs.Floating.Conversion
import BinaryRecord.Proofs.Floating.Grid
import BinaryRecord.Proofs.Floating.Integer
import BinaryRecord.Proofs.Floating.Nearest
import BinaryRecord.Proofs.Floating.Rounding
import BinaryRecord.Proofs.Floating.Value
import BinaryRecord.Proofs.Format.Bounds
import BinaryRecord.Proofs.Format.Concatenation
import BinaryRecord.Proofs.Format.Fault
import BinaryRecord.Proofs.Format.Grammar
import BinaryRecord.Proofs.Format.Item
import BinaryRecord.Proofs.Format.Spelling
import BinaryRecord.Proofs.Format.Step
import BinaryRecord.Proofs.Group.Units
import BinaryRecord.Proofs.Json.Fits
import BinaryRecord.Proofs.Json.Item
import BinaryRecord.Proofs.Json.Items
import BinaryRecord.Proofs.Json.Number
import BinaryRecord.Proofs.Json.Stable
import BinaryRecord.Proofs.Json.Untagged
import BinaryRecord.Proofs.Layout.Alike
import BinaryRecord.Proofs.Layout.Atomic
import BinaryRecord.Proofs.Layout.Buffer
import BinaryRecord.Proofs.Layout.Covered
import BinaryRecord.Proofs.Layout.Errors
import BinaryRecord.Proofs.Layout.Exchange
import BinaryRecord.Proofs.Layout.Flip
import BinaryRecord.Proofs.Layout.Growth
import BinaryRecord.Proofs.Layout.Loose
import BinaryRecord.Proofs.Layout.NormalForm
import BinaryRecord.Proofs.Layout.Placement
import BinaryRecord.Proofs.Layout.Records
import BinaryRecord.Proofs.Layout.Repack
import BinaryRecord.Proofs.Layout.Repetition
import BinaryRecord.Proofs.Layout.Reservation
import BinaryRecord.Proofs.Layout.RoundTrip
import BinaryRecord.Proofs.Layout.Scans
import BinaryRecord.Proofs.Layout.Slack
import BinaryRecord.Proofs.Layout.Units
import BinaryRecord.Proofs.Layout.WellFormed
import BinaryRecord.Proofs.Layout.Window
import BinaryRecord.Proofs.Text.Utf8
import BinaryRecord.Proofs.Word
import BinaryRecord.Text.Align
import BinaryRecord.Text.DefaultIgnorable
import BinaryRecord.Text.GraphemeExtend
import BinaryRecord.Text.Hex
import BinaryRecord.Text.Printable
import BinaryRecord.Text.Quoted
import BinaryRecord.Text.Utf8
import BinaryRecord.Value
import BinaryRecord.Word
