import ManifestGate.Main
import ManifestGate.Proofs.Action
import ManifestGate.Proofs.Manifest.CallSites
import ManifestGate.Proofs.Manifest.CallOrder
import ManifestGate.Proofs.Manifest.Parameters
import ManifestGate.Proofs.Manifest.Step
import ManifestGate.Proofs.Manifest.Dumps
import ManifestGate.Proofs.Manifest.RunOrder
import ManifestGate.Proofs.Access.Decision
import ManifestGate.Proofs.Gateway.Mediation
import ManifestGate.Proofs.Manifest.Session
import ManifestGate.Proofs.Manifest.ScopedRun
import ManifestGate.Proofs.Manifest.Points
import ManifestGate.Proofs.Manifest.Visits
import ManifestGate.Proofs.Json.Numeral
import ManifestGate.Proofs.Json.Canonical
import ManifestGate.Proofs.Json.Text
import ManifestGate.Proofs.Manifest.Origin
import ManifestGate.Proofs.Manifest.WellFormed
import ManifestGate.Proofs.Json.Nesting
import ManifestGate.Proofs.Manifest.DumpNesting
import ManifestGate.Proofs.Access.History
import ManifestGate.Proofs.Access.Pools
import ManifestGate.Proofs.Manifest.Callable
import ManifestGate.Proofs.Access.WriteLog
import ManifestGate.Proofs.Access.Screening
import ManifestGate.Proofs.Access.Permission
import ManifestGate.Proofs.Access.Tier
import ManifestGate.Proofs.CommandLine.Report
import ManifestGate.Proofs.Manifest.Refusals
import ManifestGate.Proofs.TwoRuns
import ManifestGate.Proofs.Path
import ManifestGate.Proofs.Capability.Entries
import ManifestGate.Proofs.Capability.Exchange
import ManifestGate.Proofs.Capability.Extension
import ManifestGate.Proofs.Manifest.Extension
import ManifestGate.Proofs.Manifest.Grammar
import ManifestGate.Proofs.Manifest.Acceptance
import ManifestGate.Proofs.Manifest.RequestData
import ManifestGate.Proofs.Manifest.Avoidance
import ManifestGate.Proofs.Manifest.Parsing
import ManifestGate.Proofs.Manifest.Blocks
import ManifestGate.Proofs.Manifest.Listing
import ManifestGate.Proofs.Gateway.Hidden
import ManifestGate.Proofs.Access.FilterModes
import ManifestGate.Proofs.Value
import ManifestGate.Proofs.Manifest.Rendering
import ManifestGate.Proofs.Manifest.Substitution
import ManifestGate.Proofs.Number.Rounding
import ManifestGate.Proofs.Manifest.Comparison
import ManifestGate.Proofs.Manifest.Equality
import ManifestGate.Proofs.Capability.Namespace
import ManifestGate.Proofs.Capability.Lookup
import ManifestGate.Proofs.Manifest.Aliases
import ManifestGate.Proofs.Manifest.BlockKeys
import ManifestGate.Proofs.Manifest.Literals
import ManifestGate.Proofs.Manifest.Pushes
import ManifestGate.Proofs.Manifest.Mirrors
import ManifestGate.Proofs.Manifest.LaterBlocks
import ManifestGate.Proofs.Access.Loading
import ManifestGate.Proofs.Gateway.Payloads
