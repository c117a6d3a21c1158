import TemplateVm.Bytecode.Body
import TemplateVm.Bytecode.Opcode
import TemplateVm.Bytecode.Stream
import TemplateVm.Class.Definition
import TemplateVm.Class.Descriptor
import TemplateVm.Class.EntryKind
import TemplateVm.Class.Loading
import TemplateVm.Class.Source
import TemplateVm.Class.Table
import TemplateVm.Codegen.Dispatch
import TemplateVm.Codegen.Emit
import TemplateVm.Codegen.Entry.ByKind
import TemplateVm.Codegen.Entry.Native
import TemplateVm.Codegen.Entry.Prologue
import TemplateVm.Codegen.Field
import TemplateVm.Codegen.Returns
import TemplateVm.Codegen.Sequence
import TemplateVm.Codegen.SignatureHandler
import TemplateVm.Codegen.Stubs
import TemplateVm.Codegen.Template
import TemplateVm.Codegen.Unwinding
import TemplateVm.Console.Arguments
import TemplateVm.Console.Demo
import TemplateVm.Console.Session
import TemplateVm.Decimal.Shortest
import TemplateVm.Failure
import TemplateVm.Frame
import TemplateVm.Guest.Access
import TemplateVm.Guest.Exception
import TemplateVm.Guest.TopOfStack
import TemplateVm.Guest.TypeTag
import TemplateVm.Guest.Value
import TemplateVm.Hooks
import TemplateVm.Image
import TemplateVm.Machine.Assembly
import TemplateVm.Machine.CodeCache
import TemplateVm.Machine.Cpu
import TemplateVm.Machine.Instruction
import TemplateVm.Machine.Listing
import TemplateVm.Machine.Register
import TemplateVm.Machine.Service
import TemplateVm.Machine.Source
import TemplateVm.Main
import TemplateVm.Memory.Bytes
import TemplateVm.Memory.Guarded
import TemplateVm.Memory.Heap
import TemplateVm.Memory.MarkQueue
import TemplateVm.Memory.Region
import TemplateVm.MemoryMap
import TemplateVm.Native.Bridge
import TemplateVm.Native.CallFormat
import TemplateVm.Native.HostFunction
import TemplateVm.Native.Library
import TemplateVm.Proofs.Layout.Labels
import TemplateVm.Proofs.Layout.Code
import TemplateVm.Proofs.Layout.Generated
import TemplateVm.Proofs.Layout.Installed
import TemplateVm.Proofs.Layout.Placement
import TemplateVm.Proofs.Layout.Entries
import TemplateVm.Proofs.Layout.Tables
import TemplateVm.Proofs.Memory.Words
import TemplateVm.Proofs.Memory.Access
import TemplateVm.Proofs.Memory.Copies
import TemplateVm.Proofs.Memory.Requests
import TemplateVm.Proofs.Memory.Objects
import TemplateVm.Proofs.Machine.Turns
import TemplateVm.Proofs.Machine.Conditions
import TemplateVm.Proofs.Machine.Steps
import TemplateVm.Proofs.Machine.Atomic
import TemplateVm.Proofs.Machine.Paths
import TemplateVm.Proofs.Calls.Outcome
import TemplateVm.Proofs.Guest.State
import TemplateVm.Proofs.Guest.Semantics
import TemplateVm.Proofs.Guest.Closed
import TemplateVm.Proofs.Activation.Represents
import TemplateVm.Proofs.Activation.Changes
import TemplateVm.Proofs.Activation.Leaf
import TemplateVm.Proofs.Activation.Operands
import TemplateVm.Proofs.Guest.Operations
import TemplateVm.Proofs.Activation.Fetch
import TemplateVm.Proofs.Activation.Services
import TemplateVm.Proofs.Activation.Tracing
import TemplateVm.Proofs.Activation.Entry
import TemplateVm.Proofs.Activation.Linked
import TemplateVm.Proofs.Activation.Fields
import TemplateVm.Proofs.Activation.Places
import TemplateVm.Proofs.Activation.Locks
import TemplateVm.Proofs.Activation.Leaving
import TemplateVm.Proofs.Activation.Records
import TemplateVm.Proofs.Activation.Notices
import TemplateVm.Proofs.Activation.Waiting
import TemplateVm.Proofs.Activation.Returning
import TemplateVm.Proofs.Activation.Popping
import TemplateVm.Proofs.Templates.Constants
import TemplateVm.Proofs.Templates.Locals
import TemplateVm.Proofs.Templates.Arithmetic
import TemplateVm.Proofs.Templates.Branches
import TemplateVm.Proofs.Templates.Monitors
import TemplateVm.Proofs.Activation.Banging
import TemplateVm.Proofs.Templates.Arrays
import TemplateVm.Proofs.Templates.Fields
import TemplateVm.Proofs.Templates.Casts
import TemplateVm.Proofs.Templates.Opcodes
import TemplateVm.Proofs.Templates.Comparisons
import TemplateVm.Proofs.Simulation.Step
import TemplateVm.Proofs.Simulation.Run
import TemplateVm.Proofs.Loading.Bootstrap
import TemplateVm.Proofs.Guest.Walks
import TemplateVm.Proofs.Loading.Bodies
import TemplateVm.Proofs.Loading.Operands
import TemplateVm.Proofs.Safepoints.Tables
import TemplateVm.Proofs.Safepoints.Interleavings
import TemplateVm.Proofs.Safepoints.Detour
import TemplateVm.Proofs.Natives.Formats
import TemplateVm.Proofs.Natives.Handlers
import TemplateVm.Proofs.Calls.ShortEntries
import TemplateVm.Proofs.Natives.Frames
import TemplateVm.Proofs.Natives.Parameters
import TemplateVm.Proofs.Natives.Linking
import TemplateVm.Proofs.Natives.HostCalls
import TemplateVm.Proofs.Natives.Entry
import TemplateVm.Proofs.Natives.Marshalling
import TemplateVm.Proofs.Natives.Results
import TemplateVm.Proofs.Linking.Entries
import TemplateVm.Proofs.Linking.Caches
import TemplateVm.Proofs.Linking.Resolution
import TemplateVm.Proofs.Calls.Hosting
import TemplateVm.Proofs.Simulation.Marking
import TemplateVm.Proofs.Simulation.Counting
import TemplateVm.Proofs.Calls.Recovery
import TemplateVm.Proofs.Memory.Map
import TemplateVm.Proofs.Calls.Deeds
import TemplateVm.Proofs.Calls.Sparing
import TemplateVm.Proofs.Calls.GuardZones
import TemplateVm.Proofs.Safepoints.Upkeep
import TemplateVm.Proofs.Natives.Rearming
import TemplateVm.Proofs.Natives.Leaving
import TemplateVm.Proofs.Layout.Targets
import TemplateVm.Proofs.Layout.Aims
import TemplateVm.Proofs.Layout.Openings
import TemplateVm.Proofs.Layout.Emission
import TemplateVm.Proofs.Layout.Closed
import TemplateVm.Proofs.Calls.CallStub
import TemplateVm.Proofs.Calls.Entering
import TemplateVm.Proofs.Calls.Handles
import TemplateVm.Proofs.Activation.Raising
import TemplateVm.Proofs.Activation.Rethrowing
import TemplateVm.Proofs.Machine.Hits
import TemplateVm.Proofs.Calls.Serving
import TemplateVm.Proofs.Layout.NormalEntries
import TemplateVm.Proofs.Activation.Clearing
import TemplateVm.Proofs.Activation.Framing
import TemplateVm.Proofs.Activation.SettingUp
import TemplateVm.Records
import TemplateVm.Safepoint
import TemplateVm.Settings
import TemplateVm.Text.Hex
import TemplateVm.Text.Json
import TemplateVm.Text.Query
import TemplateVm.Text.Quoted
import TemplateVm.Text.Visibility
import TemplateVm.ThreadBlock
import TemplateVm.Trace
import TemplateVm.Vm.Call
import TemplateVm.Vm.Host
import TemplateVm.Vm.Linking
import TemplateVm.Vm.Locking
import TemplateVm.Vm.Run
import TemplateVm.Vm.Services
import TemplateVm.Vm.State
import TemplateVm.Vm.Throwing
import TemplateVm.Zoom
import TemplateVm.Proofs.Calls.Lasting
import TemplateVm.Proofs.Natives.Following
import TemplateVm.Proofs.Class.Descriptors
import TemplateVm.Proofs.Class.Scanning
import TemplateVm.Proofs.Loading.Hierarchy
import TemplateVm.Proofs.Loading.Fields
import TemplateVm.Proofs.Activation.CastFailures
import TemplateVm.Proofs.Simulation.Casting
import TemplateVm.Proofs.Guest.Writing
import TemplateVm.Proofs.Layout.Assembling
import TemplateVm.Proofs.Machine.Caching
import TemplateVm.Proofs.Calls.Arguments
import TemplateVm.Proofs.Calls.HostReturn
