import CatalogSteward.Audit.Trail
import CatalogSteward.CommandLine.Run
import CatalogSteward.Console
import CatalogSteward.Disk
import CatalogSteward.DotEnv
import CatalogSteward.Extension.Lifecycle
import CatalogSteward.Fault
import CatalogSteward.Json.Reader
import CatalogSteward.Json.Writer
import CatalogSteward.Lock.Registry
import CatalogSteward.Lock.Threads
import CatalogSteward.Main
import CatalogSteward.Markup
import CatalogSteward.Rules
import CatalogSteward.Server.Catalog
import CatalogSteward.Settings.Access
import CatalogSteward.Settings.Reader
import CatalogSteward.Statement.Reader
import CatalogSteward.Text.Case
import CatalogSteward.Text.Utf8
import CatalogSteward.Value
import CatalogSteward.Version
import CatalogSteward.World
import CatalogSteward.Yaml.Reader
import CatalogSteward.Yaml.Writer
import CatalogSteward.Proofs.Act
import CatalogSteward.Proofs.Catalog
import CatalogSteward.Proofs.Client
import CatalogSteward.Proofs.Connections
import CatalogSteward.Proofs.Identifier
import CatalogSteward.Proofs.Leads
import CatalogSteward.Proofs.Rules
import CatalogSteward.Proofs.Statement
import CatalogSteward.Proofs.Lifecycle.Blocks
import CatalogSteward.Proofs.Lifecycle.Calls
import CatalogSteward.Proofs.Lifecycle.Convergence
import CatalogSteward.Proofs.Lifecycle.Course
import CatalogSteward.Proofs.Lifecycle.Effects
import CatalogSteward.Proofs.Lifecycle.Fates
import CatalogSteward.Proofs.Lifecycle.Interleaving
import CatalogSteward.Proofs.Lifecycle.Replay
import CatalogSteward.Proofs.Lifecycle.Requests
import CatalogSteward.Proofs.Lifecycle.Serial
import CatalogSteward.Proofs.Lifecycle.Serialisable
import CatalogSteward.Proofs.Lifecycle.Sound
import CatalogSteward.Proofs.Lifecycle.Visible
import CatalogSteward.Proofs.Lock.Balance
import CatalogSteward.Proofs.Lock.Phases
import CatalogSteward.Proofs.Lock.Runs
import CatalogSteward.Proofs.Lock.Section
import CatalogSteward.Proofs.Lock.Wakeup
import CatalogSteward.Proofs.Lock.Abort
import CatalogSteward.Proofs.Lock.Targets
import CatalogSteward.Proofs.Lifecycle.Naming
import CatalogSteward.Proofs.Lifecycle.Dialogue
import CatalogSteward.Proofs.Lifecycle.Refusals
import CatalogSteward.Proofs.Lifecycle.Brackets
import CatalogSteward.Proofs.Lifecycle.Discipline
import CatalogSteward.Proofs.Lifecycle.Results
import CatalogSteward.Proofs.Lifecycle.Preflight
import CatalogSteward.Proofs.CommandLine.Sessions
import CatalogSteward.Proofs.CommandLine.Works
import CatalogSteward.Proofs.CommandLine.Discipline
import CatalogSteward.Proofs.Yaml.Position
import CatalogSteward.Proofs.Yaml.Words
import CatalogSteward.Proofs.Yaml.Escapes
import CatalogSteward.Proofs.Yaml.Lexing
import CatalogSteward.Proofs.Yaml.Keys
import CatalogSteward.Proofs.Yaml.Outlines
import CatalogSteward.Proofs.Yaml.Sections
import CatalogSteward.Proofs.Yaml.Parsing
import CatalogSteward.Proofs.Decimal
import CatalogSteward.Proofs.Yaml.Leaves
import CatalogSteward.Proofs.Path
import CatalogSteward.Proofs.Settings.Validation
import CatalogSteward.Proofs.Settings.RoundTrip
import CatalogSteward.Proofs.Settings.File
import CatalogSteward.Proofs.Settings.Loading
import CatalogSteward.Proofs.Utf8
import CatalogSteward.Proofs.Number.Numerals
import CatalogSteward.Proofs.Number.Rounding
import CatalogSteward.Proofs.Number.Shortest
import CatalogSteward.Proofs.Json.Strings
import CatalogSteward.Proofs.Json.RoundTrip
import CatalogSteward.Proofs.Hex
import CatalogSteward.Proofs.Audit.Rotation
import CatalogSteward.Proofs.Audit.History
import CatalogSteward.Proofs.Audit.Refusals
import CatalogSteward.Proofs.Audit.Redaction
import CatalogSteward.Proofs.Disk
import CatalogSteward.Proofs.Disk.Attempts
import CatalogSteward.Proofs.Audit.Survival
import CatalogSteward.Proofs.Version
import CatalogSteward.Proofs.VersionNumber
import CatalogSteward.Proofs.CommandLine.Accounts
import CatalogSteward.Proofs.CommandLine.Records
import CatalogSteward.Proofs.Coupling
import CatalogSteward.Proofs.CommandLine.Coupling
import CatalogSteward.Proofs.Agreement
import CatalogSteward.Proofs.CommandLine.Secrecy
import CatalogSteward.Proofs.CommandLine.Auditing
import CatalogSteward.Proofs.Yaml.Faults
import CatalogSteward.Proofs.Yaml.Unvalued
import CatalogSteward.Proofs.CommandLine.Reports
import CatalogSteward.Proofs.CommandLine.Adoption
import CatalogSteward.Proofs.Lifecycle.Outcomes
import CatalogSteward.Proofs.Lifecycle.Restoration
import CatalogSteward.Proofs.Lifecycle.Creation
import CatalogSteward.Proofs.Lifecycle.Resumption
import CatalogSteward.Proofs.CommandLine.Operands
import CatalogSteward.Proofs.CommandLine.ExitCodes
import CatalogSteward.Proofs.CommandLine.Effects
import CatalogSteward.Proofs.Settings.Octal
import CatalogSteward.Proofs.CommandLine.Verbosity
import CatalogSteward.Proofs.Lock.Precedence
import CatalogSteward.Proofs.Markup
import CatalogSteward.Proofs.CommandLine.Wording
import CatalogSteward.Proofs.Disk.Growth
import CatalogSteward.Proofs.Settings.NewFile
import CatalogSteward.Proofs.Audit.Correlation
