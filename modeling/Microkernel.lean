import Microkernel.Kernel.Operation
import Microkernel.Log.Basic
import Microkernel.Proofs.Core.Handover
import Microkernel.Proofs.IdPool.LowestFree
import Microkernel.Proofs.Kernel.ContextSwitches
import Microkernel.Proofs.Kernel.FailedCreation
import Microkernel.Proofs.Kernel.Isolation
import Microkernel.Proofs.Kernel.Load
import Microkernel.Proofs.Kernel.Parking
import Microkernel.Proofs.Kernel.Providers
import Microkernel.Proofs.Kernel.Reclaiming
import Microkernel.Proofs.Kernel.Undeliverable
import Microkernel.Proofs.Kernel.Wakes
import Microkernel.Proofs.Log.Line
import Microkernel.Proofs.Log.Ring.Bounds
import Microkernel.Proofs.Mailbox.Bounds
import Microkernel.Proofs.Scheduler.Failures
import Microkernel.Proofs.Scheduler.Order
import Microkernel.Proofs.Scheduler.Sleeping
import Microkernel.Proofs.Task.Starting
import Microkernel.Proofs.TaskQueue.Sequence
