import WorkRouting.Access.Decision
import WorkRouting.Access.Permission
import WorkRouting.Access.PermissionSet
import WorkRouting.Access.Resource
import WorkRouting.Binary64
import WorkRouting.Command.Answer
import WorkRouting.Command.Basic
import WorkRouting.Command.CorrelationId
import WorkRouting.Command.Line
import WorkRouting.Command.Outcome
import WorkRouting.Command.Session
import WorkRouting.Event
import WorkRouting.Failure
import WorkRouting.Json.Basic
import WorkRouting.Json.Printer
import WorkRouting.Json.Reader
import WorkRouting.Least
import WorkRouting.Main
import WorkRouting.Org
import WorkRouting.Proofs.Access.Canonical
import WorkRouting.Proofs.Access.Gathering
import WorkRouting.Proofs.Access.PermissionSet
import WorkRouting.Proofs.Access.Refusal
import WorkRouting.Proofs.Access.Scopes
import WorkRouting.Proofs.Access.Targets
import WorkRouting.Proofs.Access.TextDecision
import WorkRouting.Proofs.Access.Token
import WorkRouting.Proofs.Command.Disclosure
import WorkRouting.Proofs.Command.Question
import WorkRouting.Proofs.Command.Rendering
import WorkRouting.Proofs.Command.Report
import WorkRouting.Proofs.Except
import WorkRouting.Proofs.Json.KeyOrder
import WorkRouting.Proofs.Json.RoundTrip
import WorkRouting.Proofs.Least
import WorkRouting.Proofs.Roster.Change
import WorkRouting.Proofs.Roster.History
import WorkRouting.Proofs.Routing.Agreement
import WorkRouting.Proofs.Routing.Decision
import WorkRouting.Proofs.Routing.Elimination
import WorkRouting.Proofs.Routing.Outage
import WorkRouting.Proofs.Routing.Prefill
import WorkRouting.Proofs.Routing.Responsible
import WorkRouting.Proofs.Routing.Trail
import WorkRouting.Proofs.Routing.Visibility
import WorkRouting.Proofs.Settings.Attribution
import WorkRouting.Proofs.Settings.Loading
import WorkRouting.Proofs.Settings.Placeholders
import WorkRouting.Proofs.Settings.Precedence
import WorkRouting.Proofs.Store.Denial
import WorkRouting.Proofs.Store.Employment
import WorkRouting.Proofs.Store.HeadPosition
import WorkRouting.Proofs.Store.Mirror
import WorkRouting.Proofs.Store.Ownership
import WorkRouting.Proofs.Store.Readable
import WorkRouting.Proofs.Store.Reading
import WorkRouting.Proofs.Store.Record
import WorkRouting.Proofs.Store.RuleOrder
import WorkRouting.Proofs.Store.Seeding
import WorkRouting.Proofs.Store.Sound
import WorkRouting.Proofs.Store.Tokens
import WorkRouting.Proofs.Store.UnitHead
import WorkRouting.Proofs.Store.Write
import WorkRouting.Proofs.Text
import WorkRouting.Proofs.Text.Digits
import WorkRouting.Proofs.Text.Utf8
import WorkRouting.Proofs.Wire.Domain
import WorkRouting.Proofs.Wire.Retelling
import WorkRouting.Roster
import WorkRouting.Routing.Directory
import WorkRouting.Routing.Hierarchy
import WorkRouting.Routing.Holder
import WorkRouting.Routing.Resolution
import WorkRouting.Routing.Rule
import WorkRouting.Settings.Basic
import WorkRouting.Settings.Environment
import WorkRouting.Settings.Load
import WorkRouting.Settings.Patch
import WorkRouting.Settings.Report
import WorkRouting.Store.Database
import WorkRouting.Store.Demo
import WorkRouting.Store.Directory
import WorkRouting.Store.Permissions
import WorkRouting.Store.Pool
import WorkRouting.Store.Schema
import WorkRouting.Store.Url
import WorkRouting.Store.Value
import WorkRouting.Store.Write
import WorkRouting.Text
import WorkRouting.Text.Percent
import WorkRouting.Text.Quoted
import WorkRouting.Text.Utf8
import WorkRouting.Toml.Reader
import WorkRouting.Toml.Scalar
import WorkRouting.Toml.Value
import WorkRouting.Wire.Domain
import WorkRouting.Wire.Shape
import WorkRouting.Workspace.Basic
import WorkRouting.Workspace.Connection
import WorkRouting.Workspace.Tree
