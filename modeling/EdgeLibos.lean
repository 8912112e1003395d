import EdgeLibos.Errno
import EdgeLibos.Lib.Spans
import EdgeLibos.Lib.Runs
import EdgeLibos.Lib.Traces
import EdgeLibos.Lib.HashMap
import EdgeLibos.Lib.Heap
import EdgeLibos.Lib.Chunks
import EdgeLibos.Lib.Postcard
import EdgeLibos.Lib.Words
import EdgeLibos.Lib.Bitmaps
import EdgeLibos.Lib.Ledger
import EdgeLibos.Lib.Masks
import EdgeLibos.Lib.Frames
import EdgeLibos.Lib.Broadcast
import EdgeLibos.Lib.UnixPath
import EdgeLibos.Lib.Utf8
import EdgeLibos.Lib.Json
import EdgeLibos.Lib.HostTree
import EdgeLibos.Lib.HostOps
import EdgeLibos.Lib.HostRename
import EdgeLibos.Memory
import EdgeLibos.Fd
import EdgeLibos.Kernel
import EdgeLibos.Vfs
import EdgeLibos.Mm.Safety
import EdgeLibos.Mm.Coalesce
import EdgeLibos.Mm.BestFit
import EdgeLibos.Mm.Munmap
import EdgeLibos.Sys.MemoryRuns
import EdgeLibos.Sys.Regions
import EdgeLibos.Sys.Probe
import EdgeLibos.Sys.DupLaws
import EdgeLibos.Sys.Offset
import EdgeLibos.Sys.Stream
import EdgeLibos.Sys.PipeRuns
import EdgeLibos.Sys.RegularFile
import EdgeLibos.Sys.DirFd
import EdgeLibos.Sys.HostPaths
import EdgeLibos.Sys.Rename
import EdgeLibos.Sys.Getdents
import EdgeLibos.Sys.GuestStr
import EdgeLibos.Sys.Pollers
import EdgeLibos.Sys.Readiness
import EdgeLibos.Sys.WaitAny
import EdgeLibos.Sys.Registrations
import EdgeLibos.Sys.EpollWait
import EdgeLibos.Sys.FdSets
import EdgeLibos.Sys.Time
import EdgeLibos.Sys.Timeouts
import EdgeLibos.Sys.Socket
import EdgeLibos.Sys.Accepting
import EdgeLibos.Sys.Bind
import EdgeLibos.Sys.ParseAlone
import EdgeLibos.Sys.DontWait
import EdgeLibos.Sys.HalfClose
import EdgeLibos.Sys.Vectored
import EdgeLibos.Sys.Cloexec
import EdgeLibos.Sys.Nonblock
import EdgeLibos.Process.Clone
import EdgeLibos.Process.Delivery
import EdgeLibos.Process.Wait4
import EdgeLibos.Process.Wait4Call
import EdgeLibos.Sys.ResolverCache
import EdgeLibos.Guest.Getaddrinfo
import EdgeLibos.Guest.Payload
import EdgeLibos.Futex.Agreement
import EdgeLibos.Futex.Call
import EdgeLibos.Snapshot.MemoryRestore
import EdgeLibos.Snapshot.AllocatorRestore
import EdgeLibos.Snapshot.Drivers
import EdgeLibos.Snapshot.Sparse
import EdgeLibos.Snapshot.Fixpoint
import EdgeLibos.Snapshot.Sharing
import EdgeLibos.Snapshot.HashOrder
import EdgeLibos.Snapshot.Compat
import EdgeLibos.Snapshot.Ports
import EdgeLibos.Snapshot.Serve
import EdgeLibos.Snapshot.Listeners
import EdgeLibos.Futex.Restored
import EdgeLibos.Snapshot.Reseed
import EdgeLibos.Cli.Argv
import EdgeLibos.Cli.Trace
import EdgeLibos.Cli.Tracing
import EdgeLibos.Cli.Inherit
import EdgeLibos.Sys.Signal
import EdgeLibos.Lib.HostDisk
import EdgeLibos.Snapshot.Handoff
import EdgeLibos.Sys.EventFd
import EdgeLibos.Cli.Serve
import EdgeLibos.Cli.Migrate
import EdgeLibos.Sys.Options
import EdgeLibos.Lib.Layout
import EdgeLibos.Sys.FileInfo
import EdgeLibos.Sys.Attrs
import EdgeLibos.Process.Kill
import EdgeLibos.Lib.Mapped
import EdgeLibos.Sys.Contents
