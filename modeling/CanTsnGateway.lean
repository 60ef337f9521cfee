import CanTsnGateway.Gateway.Lookup
import CanTsnGateway.Gateway.Conservation
import CanTsnGateway.Receive.Fidelity
import CanTsnGateway.Gateway.Layout
import CanTsnGateway.Gateway.PageCross
import CanTsnGateway.Gateway.GateUse
import CanTsnGateway.Gateway.GateMirror
import CanTsnGateway.Gateway.Accounting
import CanTsnGateway.Gateway.Bounds
import CanTsnGateway.Gateway.Flush
import CanTsnGateway.Gateway.OverflowCarry
import CanTsnGateway.Gateway.OptimalPacking
import CanTsnGateway.Gateway.UrgentRing
import CanTsnGateway.Receive.Listening
import CanTsnGateway.Gateway.GateTimes
import CanTsnGateway.Gateway.DriverFailures
import CanTsnGateway.Gateway.GateSlots
import CanTsnGateway.Ethernet.Undisturbed
import CanTsnGateway.Ethernet.Races
import CanTsnGateway.Ethernet.EndToEnd
import CanTsnGateway.Queue.System
import CanTsnGateway.Mailbox.SendTasks
import CanTsnGateway.Mailbox.Writes
