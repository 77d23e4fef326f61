import GuestVM.Aspec.Record
import GuestVM.Config.Record
import GuestVM.Document.Writer
import GuestVM.Failure.Record
import GuestVM.HostType.Record
import GuestVM.Object.Record
import GuestVM.Portrait.Record
import GuestVM.Script.Code
import GuestVM.Script.Native
import GuestVM.World
import GuestVM.Proofs.Heap.Slots
import GuestVM.Proofs.Heap.Survival
import GuestVM.Proofs.Heap.Histories
import GuestVM.Proofs.LowestSlots
import GuestVM.Proofs.ExactCollection
import GuestVM.Proofs.Machine.Change
import GuestVM.Proofs.Machine.Doing
import GuestVM.Proofs.Machine.Raising
import GuestVM.Proofs.Machine.Containing
import GuestVM.Proofs.Machine.Defining
import GuestVM.Proofs.Machine.Binding
import GuestVM.Proofs.Bridge.Bridging
import GuestVM.Proofs.Script.Granting
import GuestVM.Proofs.Scene
import GuestVM.Proofs.Scene.Running
import GuestVM.Proofs.Machine.Naming
import GuestVM.Proofs.Machine.Opening
import GuestVM.Proofs.Machine.Closed
import GuestVM.Proofs.Rows
import GuestVM.Proofs.Situation
import GuestVM.Proofs.Machine.Holding
import GuestVM.Proofs.NoDangling
import GuestVM.Proofs.Bridge.Returning
import GuestVM.Proofs.LiveException
import GuestVM.Proofs.Bridge.Events
import GuestVM.Proofs.Isolation
import GuestVM.Proofs.Bridge.Reaching
import GuestVM.Proofs.Machine.Owning
import GuestVM.Proofs.Linked
import GuestVM.Proofs.Bridge.Lasting
import GuestVM.Proofs.Bridge.Dispatching
import GuestVM.Proofs.BridgedMethods
import GuestVM.Bridge.Threads
import GuestVM.Proofs.Bridge.Threads
import GuestVM.Proofs.UniqueIndices
import GuestVM.Proofs.Machine.Calm
import GuestVM.Proofs.Machine.Undisturbed
import GuestVM.Proofs.Machine.Building
import GuestVM.Proofs.Script.Quiet
import GuestVM.Proofs.Scene.Turn
import GuestVM.Proofs.Balance
import GuestVM.Proofs.Bridge.Reraising
import GuestVM.Proofs.PendingRaise
import GuestVM.Proofs.Scene.Sheltered
import GuestVM.Proofs.Bridge.Locality
import GuestVM.Proofs.Scene.Private
import GuestVM.Proofs.IndependentMachines
import GuestVM.Proofs.Propagation
import GuestVM.Proofs.FrozenData
import GuestVM.Proofs.Object.HashTable
import GuestVM.Proofs.Machine.Keys
import GuestVM.Proofs.HashAgreement
import GuestVM.Proofs.Machine.Mirroring
import GuestVM.Proofs.Metaclasses
import GuestVM.Proofs.Machine.Sparing
import GuestVM.Proofs.FailedMutators
import GuestVM.Proofs.Machine.Climbing
import GuestVM.Proofs.SuperclassWalks
import GuestVM.Proofs.Machine.Established
import GuestVM.Proofs.Bridge.Surfacing
import GuestVM.Proofs.HostErrors
import GuestVM.Proofs.Bridge.Handles
import GuestVM.Proofs.StaleHandles
import GuestVM.Proofs.Machine.Enclosing
import GuestVM.Proofs.Lifetime
import GuestVM.Proofs.Bridge.Slots
import GuestVM.Proofs.ClosureEnvironments
import GuestVM.Proofs.Machine.Sealing
import GuestVM.Proofs.Bridge.Rejecting
import GuestVM.Proofs.Bridge.Hosting
import GuestVM.Proofs.FrozenClasses
import GuestVM.Proofs.RetainedCallables
import GuestVM.Proofs.Text.Utf8
import GuestVM.Proofs.Document
import GuestVM.Proofs.Machine.Depicting
import GuestVM.Proofs.Machine.Storing
import GuestVM.Proofs.DocumentRoundTrip
import GuestVM.Proofs.RangeResolution
import GuestVM.Proofs.Scene.Visiting
import GuestVM.Proofs.HeapWalks
import GuestVM.Proofs.Machine.Tables
import GuestVM.Proofs.Scene.Tables
import GuestVM.Proofs.HashWalks
import GuestVM.Proofs.Removals
import GuestVM.Proofs.Bridge.Calling
import GuestVM.Proofs.BridgedCalls
import GuestVM.Proofs.ArrayLimits
import GuestVM.Proofs.Machine.Interposing
import GuestVM.Proofs.Machine.Texts
import GuestVM.Proofs.UnseenSingletons
import GuestVM.Proofs.Machine.Ranking
import GuestVM.Proofs.ModuleFunctions
import GuestVM.Proofs.RegistrationArena
import GuestVM.Proofs.Machine.Singling
import GuestVM.Proofs.Machine.Nesting
import GuestVM.Proofs.Bridge.Reading
import GuestVM.Proofs.HashMembers
import GuestVM.Proofs.Number.Rounding
import GuestVM.Proofs.Bridge.Holding
import GuestVM.Proofs.CarriedIntegers
import GuestVM.Proofs.ValueWalks
import GuestVM.Proofs.NamedClasses
import GuestVM.Proofs.OrderedTables
import GuestVM.Proofs.IndexHistories
import GuestVM.Proofs.Machine.Methods
import GuestVM.Proofs.Machine.Writing
import GuestVM.Proofs.Bridge.Writing
import GuestVM.Proofs.Scene.Writing
import GuestVM.Proofs.MethodTables
