import Lc3Simulator.Library.Transition
import Lc3Simulator.Library.Interaction
import Lc3Simulator.Library.Progress
import Lc3Simulator.Library.BinaryHeap
import Lc3Simulator.Library.SortSearch
import Lc3Simulator.Library.IntervalTable
import Lc3Simulator.Library.KeyedLookup
import Lc3Simulator.Library.Buckets
import Lc3Simulator.Library.Layers
import Lc3Simulator.Library.Resources
import Lc3Simulator.Library.CString
import Lc3Simulator.Library.Lines
import Lc3Simulator.Register
import Lc3Simulator.Cpu
import Lc3Simulator.Isa
import Lc3Simulator.Field
import Lc3Simulator.IsaConformance
import Lc3Simulator.InterruptController
import Lc3Simulator.InterruptQueue
import Lc3Simulator.PriorityMap
import Lc3Simulator.InterruptSafety
import Lc3Simulator.Device
import Lc3Simulator.Plugins.Keyboard
import Lc3Simulator.Plugins.Display
import Lc3Simulator.Bus
import Lc3Simulator.Machine
import Lc3Simulator.TickConformance
import Lc3Simulator.AddressMap
import Lc3Simulator.Simulator
import Lc3Simulator.Delivery
import Lc3Simulator.Execution
import Lc3Simulator.Events
import Lc3Simulator.AttachFailure
import Lc3Simulator.Privilege
import Lc3Simulator.InterruptReturn
import Lc3Simulator.Stepping
import Lc3Simulator.Hashmap
import Lc3Simulator.HashmapStep
import Lc3Simulator.HashmapAllocation
import Lc3Simulator.HashmapMap
import Lc3Simulator.HashmapCount
import Lc3Simulator.HashmapIterator
import Lc3Simulator.HashmapRelease
import Lc3Simulator.SupervisorStack
import Lc3Simulator.PriorityNesting
import Lc3Simulator.ConditionCodes
import Lc3Simulator.Exceptions
import Lc3Simulator.AlertHistory
import Lc3Simulator.Arbitration
import Lc3Simulator.KeyboardInterrupts
import Lc3Simulator.InterruptLedger
import Lc3Simulator.StepComposition
import Lc3Simulator.ProgramLoad
import Lc3Simulator.LoadFailure
import Lc3Simulator.FreshProgram
import Lc3Simulator.KeyboardProtocol
import Lc3Simulator.Subscriptions
import Lc3Simulator.InputDelivery
import Lc3Simulator.TickDispatch
import Lc3Simulator.UserInterface
import Lc3Simulator.CommandEffects
import Lc3Simulator.HeapCheck
import Lc3Simulator.Basename
import Lc3Simulator.CList
import Lc3Simulator.ListCapacity
import Lc3Simulator.UiLoop
import Lc3Simulator.TypedCommands
import Lc3Simulator.BusList
import Lc3Simulator.MemoryDump
import Lc3Simulator.PluginManager
import Lc3Simulator.PluginShadowing
import Lc3Simulator.PluginResources
import Lc3Simulator.AddressOwners
import Lc3Simulator.Computer
import Lc3Simulator.PluginComputer
import Lc3Simulator.Task
import Lc3Simulator.Undisturbed
import Lc3Simulator.Os
import Lc3Simulator.Boot
import Lc3Simulator.OsCalls
import Lc3Simulator.Getc
import Lc3Simulator.Echo
import Lc3Simulator.EnvAlike
import Lc3Simulator.TerminalCalls
import Lc3Simulator.Terminal
import Lc3Simulator.TerminalOutput
import Lc3Simulator.TerminalSettings
import Lc3Simulator.TerminalSessions
