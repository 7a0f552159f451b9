import ShadeNet.OrderedMap
import ShadeNet.Number.Fixed
import ShadeNet.Number.Numeral
import ShadeNet.Number.Shortest
import ShadeNet.Scene.Basic
import ShadeNet.Scene.Order
import ShadeNet.Schema.Builtin
import ShadeNet.Schema.Check
import ShadeNet.Settings
import ShadeNet.Text.Literal
import ShadeNet.Text.Name
import ShadeNet.Text.Path
import ShadeNet.Network.Record
import ShadeNet.Network.Reference
import ShadeNet.Network.Sink
import ShadeNet.Network.Ledger
import ShadeNet.Network.Log
import ShadeNet.Network.Pass
import ShadeNet.Network.Attribute
import ShadeNet.Network.Input
import ShadeNet.Network.Layers
import ShadeNet.Network.Surface
import ShadeNet.Network.Instance
import ShadeNet.Network.Walk
import ShadeNet.Export
import ShadeNet.Text.Word
import ShadeNet.Text.Visible
import ShadeNet.Document.Token
import ShadeNet.Document.Scan
import ShadeNet.Document.Item
import ShadeNet.Document.Read
import ShadeNet.Document.Write
import ShadeNet.Document.Settings
import ShadeNet.Document.Value
import ShadeNet.Document.Catalog
import ShadeNet.Document.Scene
import ShadeNet.Text.Spacing
import ShadeNet.Command.Arguments
import ShadeNet.Command.Directory
import ShadeNet.Command.Run
import ShadeNet.Main
import ShadeNet.Proofs.Contract
import ShadeNet.Proofs.Comparison
import ShadeNet.Proofs.Cut
import ShadeNet.Proofs.Distinct
import ShadeNet.Proofs.Legible
import ShadeNet.Proofs.PostOrder
import ShadeNet.Proofs.Termination
import ShadeNet.Proofs.Upstream
import ShadeNet.Proofs.Search
import ShadeNet.Proofs.Consumer
import ShadeNet.Proofs.Spelled
import ShadeNet.Proofs.Override
import ShadeNet.Proofs.TreeKey
import ShadeNet.Proofs.Gathering
import ShadeNet.Proofs.ObjectRecord
import ShadeNet.Proofs.Meshes
import ShadeNet.Proofs.Again
import ShadeNet.Proofs.Selection
import ShadeNet.Proofs.Census
import ShadeNet.Proofs.Envelope
import ShadeNet.Proofs.Recovery
import ShadeNet.Proofs.Unreached
import ShadeNet.Proofs.Ordered
import ShadeNet.Proofs.Checked
import ShadeNet.Proofs.Unscoped
import ShadeNet.Proofs.Hidden
import ShadeNet.Proofs.Transcript
import ShadeNet.Proofs.Decoding
import ShadeNet.Proofs.Sealed
import ShadeNet.Proofs.Dependency
import ShadeNet.Proofs.Editing
import ShadeNet.Proofs.Dangling
import ShadeNet.Proofs.Attributes
import ShadeNet.Proofs.Claiming
import ShadeNet.Proofs.LiteralText
import ShadeNet.Proofs.WrittenValue
import ShadeNet.Proofs.Alignment
import ShadeNet.Proofs.Invocation
import ShadeNet.Proofs.ScenePath
import ShadeNet.Proofs.Balance
import ShadeNet.Proofs.Merging
import ShadeNet.Proofs.ByteOffsets
import ShadeNet.Proofs.ReadNumber
import ShadeNet.Proofs.Layout
import ShadeNet.Proofs.ReadItem
import ShadeNet.Proofs.SettingsDocument
import ShadeNet.Proofs.SceneDocument
