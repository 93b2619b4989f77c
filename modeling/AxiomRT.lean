import AxiomRT.Dispatch.Proofs.WaiterProofs
import AxiomRT.Dispatch.Proofs.LifecycleProofs
import AxiomRT.Dispatch.Proofs.AtomicityProofs
import AxiomRT.Dispatch.Proofs.PriorityProofs
import AxiomRT.Dispatch.Proofs.EvidenceProofs
import AxiomRT.Dispatch.Proofs.AuthorityProofs
import AxiomRT.Dispatch.Proofs.RecoveryProofs
import AxiomRT.Dispatch.Proofs.WatchdogProofs
import AxiomRT.Dispatch.History
import AxiomRT.Dispatch.Proofs.RendezvousProofs
import AxiomRT.Dispatch.Proofs.HistoryProofs
import AxiomRT.Dispatch.Proofs.IntegrityProofs
import AxiomRT.Dispatch.Proofs.DeliveryProofs
import AxiomRT.Dispatch.Proofs.ContextProofs
import AxiomRT.Dispatch.Proofs.SnapshotProofs
import AxiomRT.Dispatch.Proofs.UserWriteProofs
import AxiomRT.Dispatch.Proofs.PanicProofs
import AxiomRT.Lib.RadixTree
import AxiomRT.Paging.Arena
import AxiomRT.Paging.AddressSpace
import AxiomRT.Paging.Proofs.ArenaProofs
import AxiomRT.Paging.Proofs.AddressSpaceProofs
import AxiomRT.Dispatch.Interrupts
import AxiomRT.Dispatch.Proofs.InterruptProofs
import AxiomRT.Dispatch.Proofs.DeviceAccessProofs
import AxiomRT.Memory.Frame
import AxiomRT.Memory.PageTable
import AxiomRT.Memory.Proofs.PageTableProofs
import AxiomRT.Memory.Proofs.RefinementProofs
import AxiomRT.Caps.Capability
import AxiomRT.Caps.Proofs.AmplificationProofs
import AxiomRT.Ipc.Endpoint
import AxiomRT.Ipc.Rendezvous
import AxiomRT.Ipc.Proofs.ExactlyOnceProofs
import AxiomRT.Fault.Supervisor
import AxiomRT.Fault.Proofs.WireProofs
import AxiomRT.Fault.Channel
import AxiomRT.Fault.Proofs.ChannelProofs
import AxiomRT.Lib.Ring
import AxiomRT.Sched.Queue
import AxiomRT.Sched.FifoLists
import AxiomRT.Sched.Proofs.QueueProofs
import AxiomRT.Sched.Proofs.SchedulerProofs
import AxiomRT.Axiomctl.Events
import AxiomRT.Monitor.Serial
import AxiomRT.Monitor.Proofs.LineProofs
import AxiomRT.Dispatch.Proofs.RoundRobinProofs
import AxiomRT.Memory.Proofs.ReversibleProofs
import AxiomRT.Paging.Proofs.RepresentableProofs
import AxiomRT.Loader.Admission
import AxiomRT.Loader.Proofs.AdmissionProofs
import AxiomRT.Lib.Decimal
import AxiomRT.Lib.Interaction
import AxiomRT.User.Storage
import AxiomRT.User.Proofs.StorageProofs
import AxiomRT.User.Image
import AxiomRT.User.Proofs.ImageProofs
import AxiomRT.User.Fs
import AxiomRT.User.Loader
import AxiomRT.User.Proofs.CallProofs
import AxiomRT.User.Proofs.LoaderProofs
import AxiomRT.User.Net
import AxiomRT.User.Shell
import AxiomRT.User.Proofs.ShellProofs
import AxiomRT.Dispatch.Evidence
import AxiomRT.Dispatch.Proofs.InfoProofs
import AxiomRT.User.Proofs.HandlerProofs
import AxiomRT.User.Proofs.ServingProofs
import AxiomRT.Fault.Containment
import AxiomRT.Fault.Proofs.ContainmentProofs
import AxiomRT.User.NetBuffer
import AxiomRT.User.NetDriver
import AxiomRT.User.Proofs.NetTextProofs
import AxiomRT.User.Proofs.NetBufferProofs
import AxiomRT.User.DriverManager
import AxiomRT.User.NetSystem
import AxiomRT.User.Proofs.NetSystemProofs
import AxiomRT.Lib.Json
import AxiomRT.Lib.JsonReads
import AxiomRT.Axiomctl.Json
import AxiomRT.Axiomctl.Proofs.JsonProofs
import AxiomRT.Studio.Proofs.TasksProofs
import AxiomRT.Lib.Checked
import AxiomRT.User.Raw
import AxiomRT.User.Proofs.RawProofs
import AxiomRT.Axiomctl.Proofs.FieldLineProofs
import AxiomRT.Dispatch.HostIpc
import AxiomRT.Dispatch.Proofs.HostIpcProofs
import AxiomRT.Dispatch.Proofs.SerialLogProofs
import AxiomRT.Dispatch.Proofs.SerialRunProofs
import AxiomRT.Dispatch.Ending
import AxiomRT.Dispatch.Proofs.EndingProofs
import AxiomRT.Lib.Terminal
import AxiomRT.Studio.Jobs
import AxiomRT.Studio.Proofs.JobsProofs
import AxiomRT.User.AppSystem
import AxiomRT.User.Console
import AxiomRT.User.Proofs.AppSystemProofs
import AxiomRT.User.Proofs.ConsoleProofs
