import RemoteBoot.Image.Writer
import RemoteBoot.Main
import RemoteBoot.Node.Basic
import RemoteBoot.Proofs.Boot.GoSignal
import RemoteBoot.Proofs.Boot.Payloads
import RemoteBoot.Proofs.Boot.ReadBack
import RemoteBoot.Remote.Disturbed
import RemoteBoot.Multiboot.Held
import RemoteBoot.Proofs.BusProgram.Faults
import RemoteBoot.Proofs.Multiboot.InPlace
import RemoteBoot.Proofs.Multiboot.Requests
import RemoteBoot.Proofs.Multiboot.History
import RemoteBoot.Proofs.Multiboot.Atomicity
import RemoteBoot.Proofs.Multiboot.Retries
import RemoteBoot.Proofs.Boot.Tracking
import RemoteBoot.Proofs.Boot.Clearance
import RemoteBoot.Proofs.Boot.ArmedOnce
import RemoteBoot.Proofs.Boot.Alignment
import RemoteBoot.Proofs.Remote.ShortReads
import RemoteBoot.Proofs.Path.Spellings
import RemoteBoot.Proofs.Manifest.Traversal
import RemoteBoot.Proofs.Manifest.Splicing
import RemoteBoot.Proofs.BusProgram.Exchanges
import RemoteBoot.Proofs.BusProgram.Reading
import RemoteBoot.Proofs.BusProgram.Writing
import RemoteBoot.Proofs.Image.Windows
import RemoteBoot.Proofs.Image.Loading
import RemoteBoot.Proofs.Image.RoundTrip
import RemoteBoot.Proofs.Image.Malformed
import RemoteBoot.Proofs.Restart.Rebooting
import RemoteBoot.Proofs.Manifest.Layout
import RemoteBoot.Proofs.Multiboot.Spacing
import RemoteBoot.Proofs.Image.LoadFaults
import RemoteBoot.Proofs.Restart.GatePlace
import RemoteBoot.Proofs.Manifest.Padding
import RemoteBoot.Proofs.Node.History
import RemoteBoot.Proofs.Text.Numerals
import RemoteBoot.Proofs.Command.Execution
import RemoteBoot.Proofs.Command.OptionOrder
import RemoteBoot.Proofs.Multiboot.BlockCodec
import RemoteBoot.Proofs.Remote.Waiting
import RemoteBoot.Proofs.Json.Grammar
import RemoteBoot.Proofs.Json.Numbers
import RemoteBoot.Proofs.Json.Reading
import RemoteBoot.Proofs.Json.Records
import RemoteBoot.Proofs.Settings.Fields
import RemoteBoot.Proofs.Settings.Overriding
import RemoteBoot.Proofs.Files.Lookup
