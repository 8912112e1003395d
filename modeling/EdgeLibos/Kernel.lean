import EdgeLibos.Fd
import EdgeLibos.Memory

/-!
# The kernel

The per-store state that system calls work on. The fields of the shared
`ProcessState` that are modelled stand beside the others, and `cells` holds
what the source keeps behind an `Arc`.
-/

namespace EdgeLibos

open Errno Lib Mm

structure ClockState where
  bootMonotonicNs : UInt64
  deriving DecidableEq, Repr

structure Vfs where
  root : PathBuf
  cwd : PathBuf
  deriving DecidableEq, Repr

structure SigAction where
  handler : UInt64
  flags : UInt64
  restorer : UInt64
  mask : UInt64
  deriving DecidableEq, Repr

structure SignalState where
  actions : HashMap Int32 SigAction
  mask : UInt64
  altStack : Option (List UInt8)

def SignalState.new : SignalState := { actions := .empty, mask := 0, altStack := none }

structure FutexEntry where
  notify : Nat
  waiters : Nat
  deriving DecidableEq, Repr

structure FutexTable where
  byAddr : HashMap UInt32 FutexEntry

def FutexTable.default : FutexTable := { byAddr := .empty }

abbrev RngSeed := Vector UInt8 32

/-- A generator is known by its seed and the lengths of the draws made from it. -/
structure SmallRng where
  seed : RngSeed
  draws : List Nat

def SmallRng.fromSeed (seed : RngSeed) : SmallRng := { seed, draws := [] }

structure Kernel where
  memory : Option MemoryKind
  fds : FdTable
  cells : Cells
  vfs : Vfs
  mm : LinearAllocator
  clock : ClockState
  brk : UInt32
  args : List String
  env : List (String × String)
  rng : SmallRng
  rngSeed : RngSeed
  signals : SignalState
  exitCode : Option Int32
  comm : Vector UInt8 16
  futexTable : FutexTable
  cpuNs : UInt64

namespace Kernel

/-- `new_inner`, with the seed the operating system supplies. -/
def new (args : List String) (env : List (String × String)) (vfs : Vfs) (rngSeed : RngSeed) :
    Kernel :=
  let (fds, cells) := FdTable.withBufferedStdio .empty
  { memory := none, fds, cells, vfs, mm := .new, clock := { bootMonotonicNs := 0 }, brk := 0,
    args, env, rng := .fromSeed rngSeed, rngSeed, signals := .new, exitCode := none,
    comm := Vector.replicate 16 0, futexTable := .default, cpuNs := 0 }

def attachMemory (k : Kernel) (mem : LinearMemory) : Kernel := { k with memory := some (.owned mem) }

def ownedMemory (k : Kernel) : Except Int LinearMemory := ownedOf k.memory

theorem ownedMemory_ok {k : Kernel} (h : k.ownedMemory = .ok mem) : k.memory = some (.owned mem) :=
  ownedOf_ok h

end Kernel

end EdgeLibos
