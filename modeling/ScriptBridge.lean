import ScriptBridge.Binding.Callable
import ScriptBridge.Binding.Catalog
import ScriptBridge.Binding.Extension
import ScriptBridge.Binding.NamespaceTree
import ScriptBridge.Binding.Operator
import ScriptBridge.Binding.Overload
import ScriptBridge.Binding.Procedure
import ScriptBridge.Binding.Tables
import ScriptBridge.Config
import ScriptBridge.Context.Basic
import ScriptBridge.Context.Binding
import ScriptBridge.Context.Calls
import ScriptBridge.Context.Conversion
import ScriptBridge.Context.Dispatch
import ScriptBridge.Context.Members
import ScriptBridge.Context.Operation
import ScriptBridge.Context.Overloads
import ScriptBridge.Context.Realm
import ScriptBridge.Context.Shared
import ScriptBridge.Error
import ScriptBridge.FinMap
import ScriptBridge.Host.Assignable
import ScriptBridge.Host.Code
import ScriptBridge.Host.Declaration
import ScriptBridge.Host.Error
import ScriptBridge.Host.Literal
import ScriptBridge.Host.Member
import ScriptBridge.Host.Native
import ScriptBridge.Host.Registry
import ScriptBridge.Host.Show
import ScriptBridge.Host.Signature
import ScriptBridge.Host.Store
import ScriptBridge.Host.TypeRef
import ScriptBridge.Host.TypeSystem
import ScriptBridge.Host.Value
import ScriptBridge.Identity.Cache
import ScriptBridge.Metrics
import ScriptBridge.Number.BinaryFormat
import ScriptBridge.Number.Floating
import ScriptBridge.Number.Hexadecimal
import ScriptBridge.Number.Printed
import ScriptBridge.Number.Shortest
import ScriptBridge.Proofs.Conversion.Soundness
import ScriptBridge.Proofs.Host.Plain
import ScriptBridge.Proofs.Host.RuntimeTypes
import ScriptBridge.Proofs.Identity.Consistency
import ScriptBridge.Proofs.Identity.Requests
import ScriptBridge.Proofs.Identity.Succession
import ScriptBridge.Proofs.Modes.Agreement
import ScriptBridge.Proofs.Modes.Basic
import ScriptBridge.Proofs.Modes.Binding
import ScriptBridge.Proofs.Modes.Calls
import ScriptBridge.Proofs.Modes.Dispatch
import ScriptBridge.Proofs.Modes.Lockstep
import ScriptBridge.Proofs.Modes.Members
import ScriptBridge.Proofs.Modes.Operations
import ScriptBridge.Proofs.Modes.Renaming
import ScriptBridge.Proofs.Modes.Simulation
import ScriptBridge.Proofs.Modes.Tables
import ScriptBridge.Proofs.Realms.Actions
import ScriptBridge.Proofs.Realms.Release
import ScriptBridge.Proofs.Realms.Typing
import ScriptBridge.Proofs.Steps.Binding
import ScriptBridge.Proofs.Steps.Dispatch
import ScriptBridge.Proofs.Steps.Exec
import ScriptBridge.Proofs.Steps.Members
import ScriptBridge.Proofs.Steps.Operations
import ScriptBridge.Proofs.Steps.Step
import ScriptBridge.Proofs.Steps.Typing
import ScriptBridge.Script.Frame
import ScriptBridge.Script.Table
import ScriptBridge.Script.Value
import ScriptBridge.Text.Blank
import ScriptBridge.Text.CodePoints
import ScriptBridge.Text.Combining
import ScriptBridge.Text.Dotted
import ScriptBridge.Text.Invisible
import ScriptBridge.Text.Quoted
import ScriptBridge.Proofs.Realms.Bindings
import ScriptBridge.Proofs.Realms.Complete
import ScriptBridge.Proofs.Realms.Hidden
import ScriptBridge.Proofs.Namespaces.Requests
import ScriptBridge.Proofs.Realms.RoundTrip
import ScriptBridge.Proofs.Realms.AddedLater
import ScriptBridge.Proofs.Realms.Reaching
import ScriptBridge.Proofs.Natives.Alike
import ScriptBridge.Proofs.Natives.Lawful
import ScriptBridge.Proofs.Natives.Callables
import ScriptBridge.Proofs.Realms.Receivers
import ScriptBridge.Proofs.Realms.Functions
import ScriptBridge.Proofs.Realms.Refusals
import ScriptBridge.Proofs.Realms.BindOrder
import ScriptBridge.Proofs.Realms.Arguments
import ScriptBridge.Proofs.Realms.Reading
import ScriptBridge.Proofs.Realms.Copies
import ScriptBridge.Proofs.Realms.Foreign
import ScriptBridge.Proofs.Conversion.Dominance
import ScriptBridge.Proofs.Realms.Assignability
import ScriptBridge.Proofs.Realms.ExtensionCalls
import ScriptBridge.Proofs.Realms.Fields
import ScriptBridge.Proofs.Realms.Events
import ScriptBridge.Proofs.Realms.Registrations
import ScriptBridge.Proofs.Realms.Termination
import ScriptBridge.Proofs.Realms.Unbinding
import ScriptBridge.Proofs.Realms.Integers
import ScriptBridge.Proofs.Realms.Candidates
import ScriptBridge.Proofs.Realms.Indexers
import ScriptBridge.Proofs.Realms.Items
import ScriptBridge.Proofs.Realms.Contested
import ScriptBridge.Proofs.Realms.ArrayNames
import ScriptBridge.Proofs.Realms.Arrays
import ScriptBridge.Proofs.Realms.Rebinding
import ScriptBridge.Proofs.Tables.Grouping
