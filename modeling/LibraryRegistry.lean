import LibraryRegistry.Main
import LibraryRegistry.Program.Serve
import LibraryRegistry.Proofs.Client
import LibraryRegistry.Proofs.Endpoint
import LibraryRegistry.Proofs.LookUp
import LibraryRegistry.Proofs.Failure
import LibraryRegistry.Proofs.Json.Object
import LibraryRegistry.Proofs.Json.Layout
import LibraryRegistry.Proofs.Record.Json
import LibraryRegistry.Proofs.Report
import LibraryRegistry.Proofs.CommandLine.Reader
import LibraryRegistry.Proofs.CommandLine.Values
import LibraryRegistry.Proofs.Text.Blank
import LibraryRegistry.Proofs.Program.Arguments
import LibraryRegistry.Proofs.Config
import LibraryRegistry.Proofs.Program.LookUp
import LibraryRegistry.Proofs.Wire.Pieces
import LibraryRegistry.Proofs.Record.Pieces
import LibraryRegistry.Proofs.Wire.Nesting
import LibraryRegistry.Proofs.Record.Undeclared
import LibraryRegistry.Proofs.Wire.CutOff
import LibraryRegistry.Proofs.Record.Delimited
import LibraryRegistry.Proofs.Changes
import LibraryRegistry.Proofs.Framing
import LibraryRegistry.Proofs.Headers
import LibraryRegistry.Proofs.Net.Target
import LibraryRegistry.Proofs.Routing
import LibraryRegistry.Proofs.Json.Number
import LibraryRegistry.Proofs.Options
import LibraryRegistry.Proofs.Program.Sources
import LibraryRegistry.Proofs.OptionsText
import LibraryRegistry.Proofs.Record.Forms
import LibraryRegistry.Proofs.Layers
import LibraryRegistry.Proofs.Program.Numbers
import LibraryRegistry.Proofs.Record.Beginnings
import LibraryRegistry.Proofs.Duration
import LibraryRegistry.Proofs.Text.Quoted
import LibraryRegistry.Proofs.Diagnostics
