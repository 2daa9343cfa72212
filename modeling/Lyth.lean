import Lyth.Blkdev
import Lyth.UserHeap
import Lyth.FirstFit
import Lyth.KmallocSize
import Lyth.Routing
import Lyth.ShmPlacement
import Lyth.UserAccess
import Lyth.MmapPlacement
import Lyth.Shell
import Lyth.ShellLine
import Lyth.DrawLine
import Lyth.SlotReuse
import Lyth.Deadlines
import Lyth.TimedQueue
import Lyth.Sched
import Lyth.Waitpid
import Lyth.Zombies
import Lyth.ForkFailure
import Lyth.Ipv4
import Lyth.Receive
import Lyth.Sockets
import Lyth.VfsCache
import Lyth.PipeLifetime
import Lyth.Poll
import Lyth.FlatStore
import Lyth.FatChain
import Lyth.FatFsck
import Lyth.Dirty
import Lyth.Blit
import Lyth.Virtio
