import Lighter.Bus.InterruptLine
import Lighter.Cli.InstanceLaws
import Lighter.Docker.ForwardLaws
import Lighter.Fs.ApplyStarvation
import Lighter.Fs.RegistryLaws
import Lighter.Fs.Slot
import Lighter.Machine.Boot
import Lighter.Machine.MemoryPolicy
import Lighter.Net.Announcements
import Lighter.Net.DhcpOptions
import Lighter.Reactor.Backlog
import Lighter.Reactor.UdpFlowLaws
import Lighter.Virtio.BlockRetention
import Lighter.Virtio.ChainBound
import Lighter.Virtio.FsSessions
import Lighter.Virtio.MemOffers
import Lighter.Virtio.Negotiation
import Lighter.Virtio.NetParking
import Lighter.Virtio.PackedMailbox
import Lighter.Virtio.ParkLoop
import Lighter.Virtio.Request
import Lighter.Virtio.SplitMailbox
import Lighter.Vsock.CreditFlow
import Lighter.Vsock.CreditOrder
import Lighter.Vsock.GuestToHost
import Lighter.Vsock.HostToGuest
import Lighter.Vsock.OutboxBound
import Lighter.Vsock.PacketParse
