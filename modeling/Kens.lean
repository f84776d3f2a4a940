import Kens.Semantics.Machine
import Kens.Semantics.PriorityQueue
import Kens.Semantics.Splice
import Kens.Semantics.SingleServer
import Kens.Semantics.CyclicSearch
import Kens.Semantics.Lookup
import Kens.Semantics.LossyQueue
import Kens.Semantics.LittleEndian
import Kens.Semantics.Capture
import Kens.System.Basic
import Kens.System.Execution
import Kens.System.Agreement
import Kens.System.Order
import Kens.System.Clock
import Kens.System.Tables
import Kens.System.Outcome
import Kens.System.Cancel
import Kens.System.Horizon
import Kens.System.HashOrder
import Kens.System.Reactive
import Kens.System.Channel
import Kens.System.Prompt
import Kens.System.Driven
import Kens.System.Relabel
import Kens.Networking.Packet
import Kens.Networking.PacketAccess
import Kens.Networking.PacketRegistry
import Kens.Networking.NetworkUtil
import Kens.Networking.RoutingInfo
import Kens.Networking.LongestPrefix
import Kens.Networking.RouteOrder
import Kens.Networking.IPv4
import Kens.Networking.HeaderErrors
import Kens.Networking.Ethernet
import Kens.Networking.Stack
import Kens.Networking.Receive
import Kens.Networking.Link
import Kens.Networking.OutputQueue
import Kens.Networking.DropPolicy
import Kens.Networking.ServiceTimes
import Kens.Networking.PacketLog
import Kens.Networking.Wire
import Kens.Networking.Duplex
import Kens.Networking.Switch
import Kens.Networking.Corruption
import Kens.Networking.Forwarding
import Kens.Networking.Star
import Kens.Networking.Delivery
import Kens.Networking.LossyStar
import Kens.Networking.LossyDelivery
import Kens.Networking.Drain
import Kens.Networking.HubStar
import Kens.Networking.Programs
import Kens.Host.Basic
import Kens.Host.Execution
import Kens.Host.Protocol
import Kens.Host.View
import Kens.Host.Simulation
import Kens.Host.Bookkeeping
import Kens.Host.Events
import Kens.Host.Servable
import Kens.Host.Sleep
import Kens.Host.Changes
import Kens.Host.Descriptors
import Kens.Host.LowestFree
import Kens.Host.ProcessIds
import Kens.Host.CleanUp
import Kens.Host.Handover
import Kens.Host.RoutedPort
import Kens.Host.Node
import Kens.Host.Stages
import Kens.Host.EndToEnd
import Kens.Host.EmptyPool
import Kens.Host.Scheduled
import Kens.Host.InFlight
import Kens.Host.Abstraction
import Kens.Host.Refinement
