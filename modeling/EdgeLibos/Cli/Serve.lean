import EdgeLibos.Cli.Inherit
import EdgeLibos.Snapshot.Handoff
import EdgeLibos.Snapshot.Listeners

/-!
# Freezing and serving

`freeze` runs a module and writes what is left of its kernel, with a hash of the module.
`serve` reads that file and builds the kernel that the guest goes on in. It may be told a
port, which is for the listeners that it opens itself: those of the parent are open already.
-/

namespace EdgeLibos.Cli

open Lib Snapshot
open HostTree (Disk ErrorKind Fault)
open Paths (bytesOf)

inductive RunError
  | cli (e : CliError)
  | snapshot (e : SnapshotError)
  | moduleHashMismatch (snapHash wasmHash : Vector UInt8 32)
  | wasmtime (message : String)

structure Engine where
  sha256 : List UInt8 → Vector UInt8 32
  /-- The kernel after the module's start function, and the memory that the module exports. -/
  instantiate : List UInt8 → Kernel → Except String (Kernel × Option LinearMemory)
  /-- What the guest leaves when it returns or its time is up, its files included. -/
  callStart : List UInt8 → Kernel → Disk → Kernel × Disk

structure Process where
  host : Host
  parent : ParentFds
  env : List EnvVar
  vfs : Vfs
  seed : RngSeed

def describe : ErrorKind → String
  | .notFound => "No such file or directory (os error 2)"
  | .alreadyExists => "File exists (os error 17)"
  | .invalidInput => "file name contained an unexpected NUL byte"
  | .notADirectory => "Not a directory (os error 20)"
  | .isADirectory => "Is a directory (os error 21)"
  | .directoryNotEmpty => "Directory not empty (os error 39)"
  | .permissionDenied => "Permission denied (os error 13)"
  | .filesystemLoop => "Too many levels of symbolic links (os error 40)"

def readModule (d : Disk) (command wasmPath : String) : Except RunError (List UInt8) :=
  match d.read (bytesOf wasmPath) with
  | .error e => .error (.cli (.args (command ++ ": reading " ++ wasmPath ++ ": " ++ describe e)))
  | .ok bytes => .ok bytes

def Engine.load (engine : Engine) (bytes : List UInt8) (kernel : Kernel) : Except RunError Kernel :=
  match engine.instantiate bytes kernel with
  | .error e => .error (.wasmtime e)
  | .ok (kernel, some mem) => .ok (kernel.attachMemory mem)
  | .ok (kernel, none) => .ok kernel

-- ---------------------------------------------------------------------------
-- Freezing
-- ---------------------------------------------------------------------------

def freezeSnapshot (engine : Engine) (p : Process) (d : Disk) (wasmPath : String) (guestArgs : List String) :
    Except RunError (KernelSnapshot × Disk) := do
  let bytes ← readModule d "freeze" wasmPath
  let kernel ← engine.load bytes (.new guestArgs [] p.vfs p.seed)
  let (kernel, d) := engine.callStart bytes kernel d
  .ok ({ tryToSnapshot kernel with moduleSha256 := engine.sha256 bytes }, d)

def freezeMain (engine : Engine) (p : Process) (d : Disk) (args : List String) (fault : Option (Fault IoError)) :
    Except RunError Unit × Disk :=
  match parseFreezeArgv args with
  | .error e => (.error (.cli e), d)
  | .ok (out, wasmPath, guestArgs) =>
    match freezeSnapshot engine p d wasmPath guestArgs with
    | .error e => (.error e, d)
    | .ok (snap, d) =>
      match writeSnapshotFile d out snap fault with
      | (.ok (), d) => (.ok (), d)
      | (.error e, d) => (.error (.snapshot e), d)

-- ---------------------------------------------------------------------------
-- Serving
-- ---------------------------------------------------------------------------

def USAGE_SERVE : String := "usage: edge-cli serve <snap> <wasm> [--port <p>]"

def parseU16 (text : List Char) : Except String UInt16 := (parseUnsigned (2 ^ 16 - 1) text).map UInt16.ofNat

def readPort (raw : String) : Except CliError (Option UInt16) :=
  match parseU16 raw.toList with
  | .error e => .error (.args ("serve: --port: " ++ e))
  | .ok p => if p = 0 then .error (.args "serve: --port 0 is reserved (kernel ephemeral)") else .ok (some p)

def parseServeArgv (args : List String) : Except CliError (Option UInt16 × PathBuf × String) := do
  let (port, positional) ← scan "--port" "serve: --port requires a number argument" readPort none args
  match positional with
  | snapPath :: wasmPath :: _ => .ok (port, snapPath, wasmPath)
  | _ => .error (.args USAGE_SERVE)

/-- The socket of an entry that `--port` is for. -/
def v4Acceptor? (e : FdEntrySnapshot) : Option (SocketSnapshot × Vector UInt8 4) :=
  match e.kind.kind, e.kind.body.socket with
  | .socket, some sock =>
    match sock.bound with
    | some (.v4 _ addr) => if sock.isAcceptor then some (sock, addr) else none
    | _ => none
  | _, _ => none

def withPort (port : UInt16) (e : FdEntrySnapshot) : FdEntrySnapshot :=
  match v4Acceptor? e with
  | some (sock, addr) => { e with kind.body.socket := some { sock with bound := some (.v4 port addr) } }
  | none => e

def overrideSnapshotPort (snap : KernelSnapshot) (port : UInt16) : Except CliError KernelSnapshot :=
  if snap.fds.entries.any fun e => (v4Acceptor? e).isSome then
    .ok { snap with fds.entries := snap.fds.entries.map (withPort port) }
  else .error (.args "serve: --port: snapshot has no IPv4 listener to override")

def overrideIfTold (snap : KernelSnapshot) : Option UInt16 → Except CliError KernelSnapshot
  | none => .ok snap
  | some port => overrideSnapshotPort snap port

/-- A snapshot without a hash is for any module. -/
def verifyModuleHash (engine : Engine) (snap : KernelSnapshot) (bytes : List UInt8) : Except RunError Unit :=
  if snap.moduleSha256 = Vector.replicate 32 0 then .ok ()
  else if engine.sha256 bytes ≠ snap.moduleSha256 then
    .error (.moduleHashMismatch snap.moduleSha256 (engine.sha256 bytes))
  else .ok ()

def ofCli : Except CliError α → Except RunError α
  | .error e => .error (.cli e)
  | .ok a => .ok a

def ofSnapshot : Except SnapshotError α → Except RunError α
  | .error e => .error (.snapshot e)
  | .ok a => .ok a

/-- Up to where the guest goes on. -/
def serveLoop (engine : Engine) (p : Process) (d : Disk) (snap : KernelSnapshot) (wasmPath : String)
    (inherited : List (UInt32 × Int32)) : Except RunError Kernel := do
  let bytes ← readModule d "serve" wasmPath
  let kernel ← engine.load bytes (.new [] [] p.vfs p.seed)
  verifyModuleHash engine snap bytes
  let kernel ← ofSnapshot (serveFds p.host p.parent snap inherited kernel)
  match kernel.ownedMemory with
  | .error _ => .error (.cli (.args "serve: no memory after instantiate"))
  | .ok mem =>
    let mem ← ofSnapshot (applySnapshotToMemory snap mem)
    .ok { kernel with memory := some (.owned mem) }

def serveMain (engine : Engine) (p : Process) (d : Disk) (args : List String) : Except RunError Kernel := do
  let (port, snapPath, wasmPath) ← ofCli (parseServeArgv args)
  let snap ← ofSnapshot (readSnapshotFile d snapPath)
  let snap ← ofCli (overrideIfTold snap port)
  let inherited ← ofCli (parseInheritedFds p.env)
  serveLoop engine p d snap wasmPath inherited

-- ---------------------------------------------------------------------------
-- The port
-- ---------------------------------------------------------------------------

section
variable {host : Host} {port : Option UInt16} {snap : KernelSnapshot} {e : FdEntrySnapshot}
  {sock : SocketSnapshot}

def portedEntry (port : Option UInt16) (e : FdEntrySnapshot) : FdEntrySnapshot :=
  match port with
  | none => e
  | some port => withPort port e

def ported (port : Option UInt16) (snap : KernelSnapshot) : KernelSnapshot :=
  { snap with fds.entries := snap.fds.entries.map (portedEntry port) }

theorem ported_none (snap : KernelSnapshot) : ported none snap = snap := by
  have hid : portedEntry none = id := rfl
  simp only [ported, hid, List.map_id_fun, id]

structure Inet (e : FdEntrySnapshot) (sock : SocketSnapshot) : Prop where
  kind : e.kind.kind = .socket
  socket : e.kind.body.socket = some sock
  family : sock.familyUnix = false

theorem v4Acceptor?_eq_some_iff : v4Acceptor? e = some (sock, addr) ↔ e.kind.kind = .socket ∧
    e.kind.body.socket = some sock ∧ sock.isAcceptor = true ∧ ∃ recorded, sock.bound = some (.v4 recorded addr) := by
  constructor
  · intro h
    unfold v4Acceptor? at h
    split at h
    · rename_i hkind hsock
      split at h
      · rename_i recorded _ hbound
        split at h
        · rename_i hacceptor
          cases h
          exact ⟨hkind, hsock, hacceptor, recorded, hbound⟩
        · cases h
      · cases h
    · cases h
  · rintro ⟨hkind, hsock, hacceptor, recorded, hbound⟩
    simp [v4Acceptor?, hkind, hsock, hbound, hacceptor]

theorem withPort_of_none (h : v4Acceptor? e = none) (port : UInt16) : withPort port e = e := by
  simp only [withPort, h]

theorem withPort_of_some (h : v4Acceptor? e = some (sock, addr)) (port : UInt16) : withPort port e =
    { e with kind.body.socket := some { sock with bound := some (.v4 port addr) } } := by
  simp only [withPort, h]

theorem withPort_same (port : UInt16) (e : FdEntrySnapshot) :
    (withPort port e).fd = e.fd ∧ (withPort port e).kind.kind = e.kind.kind ∧
      isInherited (withPort port e).kind = isInherited e.kind := by
  cases h : v4Acceptor? e with
  | none => simp [withPort_of_none h]
  | some x =>
    obtain ⟨sock, addr⟩ := x
    obtain ⟨hkind, hsock, -⟩ := v4Acceptor?_eq_some_iff.mp h
    simp [withPort_of_some h, isInherited, hkind, hsock]

theorem portedEntry_fd (port : Option UInt16) (e : FdEntrySnapshot) : (portedEntry port e).fd = e.fd := by
  cases port with
  | none => rfl
  | some port => exact (withPort_same port e).1

theorem isInherited_ported (port : Option UInt16) (e : FdEntrySnapshot) :
    isInherited (portedEntry port e).kind = isInherited e.kind := by
  cases port with
  | none => rfl
  | some port => exact (withPort_same port e).2.2

theorem inheritedFds_ported (port : Option UInt16) (snap : KernelSnapshot) :
    inheritedFds (ported port snap) = inheritedFds snap := by
  simp [inheritedFds, ported, List.filter_map, Function.comp_def, isInherited_ported, portedEntry_fd]

theorem mem_ported (h : e ∈ snap.fds.entries) : portedEntry port e ∈ (ported port snap).fds.entries :=
  List.mem_map_of_mem h

theorem overrideSnapshotPort_ok {port : UInt16} (h : overrideSnapshotPort snap port = .ok snap') :
    (∃ e ∈ snap.fds.entries, (v4Acceptor? e).isSome) ∧ snap' = ported (some port) snap := by
  unfold overrideSnapshotPort at h
  split at h
  · rename_i hany
    cases h
    exact ⟨List.any_eq_true.mp hany, rfl⟩
  · cases h

/-- A listener of the internet family is opened at the port that was asked for. -/
theorem restoreSocket_ported (hi : Inet e sock)
    (h : restoreSocket host c e.fd (portedEntry port e).kind.body = .ok (r, c')) :
    ∃ recorded addr listener, sock.bound = some (.v4 recorded addr) ∧
      host.bindTcp e.fd (port.getD recorded) addr = .ok listener ∧ r = .socket c.sockets.next ∧
        c' = { c with sockets := (c.sockets.alloc (.fromTcpListener listener (.v4 (port.getD recorded) addr)
          sock.soReuseaddr sock.nonblock)).2 } := by
  obtain ⟨hkind, hsock, hfamily⟩ := hi
  obtain ⟨sock', s, hsock', -, hmade, rfl, rfl⟩ := restoreSocket_ok h
  -- Without a port the entry is as it was recorded.
  have hrecorded (he : portedEntry port e = e) (hport : ∀ q addr, sock.isAcceptor = true →
      sock.bound = some (.v4 q addr) → port.getD q = q) : ∃ recorded addr listener,
        sock.bound = some (.v4 recorded addr) ∧ host.bindTcp e.fd (port.getD recorded) addr = .ok listener ∧
          s = .fromTcpListener listener (.v4 (port.getD recorded) addr) sock.soReuseaddr sock.nonblock := by
    rw [he, hsock] at hsock'
    cases hsock'
    cases hmade with
    | unix family => simp [hfamily] at family
    | tcp family acceptor bound opened =>
      rename_i q addr listener
      have hq := hport q addr acceptor bound
      exact ⟨q, addr, listener, bound, by rw [hq]; exact opened, by rw [hq]⟩
  suffices hs : ∃ recorded addr listener, sock.bound = some (.v4 recorded addr) ∧
      host.bindTcp e.fd (port.getD recorded) addr = .ok listener ∧
        s = .fromTcpListener listener (.v4 (port.getD recorded) addr) sock.soReuseaddr sock.nonblock by
    obtain ⟨recorded, addr, listener, hbound, hopen, rfl⟩ := hs
    exact ⟨recorded, addr, listener, hbound, hopen, rfl, rfl⟩
  cases port with
  | none => exact hrecorded rfl fun _ _ _ _ => rfl
  | some port =>
    cases hv : v4Acceptor? e with
    | none =>
      refine hrecorded (withPort_of_none hv port) fun q addr hacceptor hbound => ?_
      rw [v4Acceptor?_eq_some_iff.mpr ⟨hkind, hsock, hacceptor, q, hbound⟩] at hv
      cases hv
    | some x =>
      obtain ⟨sock₁, addr⟩ := x
      obtain ⟨-, hsock₁, -, recorded, hbound⟩ := v4Acceptor?_eq_some_iff.mp hv
      cases hsock.symm.trans hsock₁
      have hported : sock' = { sock with bound := some (.v4 port addr) } := by
        simp only [portedEntry, withPort_of_some hv, Option.some.injEq] at hsock'
        exact hsock'.symm
      cases hported
      cases hmade with
      | unix family => simp [hfamily] at family
      | tcp family acceptor bound opened =>
        cases bound
        exact ⟨recorded, addr, _, hbound, opened, rfl⟩

theorem restoreResource_ported (h : ∀ sock, ¬ Inet e sock) (host : Host) (c : Cells) (fd : UInt32) :
    restoreResource host c fd (portedEntry port e).kind = restoreResource host c fd e.kind := by
  cases port with
  | none => rfl
  | some port =>
    cases hv : v4Acceptor? e with
    | none => rw [portedEntry, withPort_of_none hv]
    | some x =>
      obtain ⟨sock, addr⟩ := x
      obtain ⟨hkind, hsock, -⟩ := v4Acceptor?_eq_some_iff.mp hv
      have hunix : sock.familyUnix = true := by
        by_contra hne
        exact h sock ⟨hkind, hsock, Bool.not_eq_true _ ▸ hne⟩
      simp only [portedEntry, withPort_of_some hv, restoreResource, hkind, restoreSocket, hsock, hunix, if_true]
      rfl

end

-- ---------------------------------------------------------------------------
-- The steps
-- ---------------------------------------------------------------------------

section
variable {engine : Engine} {p : Process} {d : Disk} {port : Option UInt16} {snap : KernelSnapshot}
  {inherited : List (UInt32 × Int32)} {k k' : Kernel}

theorem ofCli_ok {x : Except CliError α} (h : ofCli x = .ok a) : x = .ok a := by
  cases x with
  | error e => cases h
  | ok b =>
    cases h
    rfl

theorem ofSnapshot_ok {x : Except SnapshotError α} (h : ofSnapshot x = .ok a) : x = .ok a := by
  cases x with
  | error e => cases h
  | ok b =>
    cases h
    rfl

structure ServeInput (p : Process) (d : Disk) (args : List String) (port : Option UInt16) (wasmPath : String)
    (snap : KernelSnapshot) (inherited : List (UInt32 × Int32)) : Prop where
  file : ∃ snapPath, parseServeArgv args = .ok (port, snapPath, wasmPath) ∧ readSnapshotFile d snapPath = .ok snap
  env : parseInheritedFds p.env = .ok inherited
  asked : port.isSome → ∃ e ∈ snap.fds.entries, (v4Acceptor? e).isSome

theorem serveMain_ok (h : serveMain engine p d args = .ok k) : ∃ port wasmPath snap inherited,
    ServeInput p d args port wasmPath snap inherited ∧
      serveLoop engine p d (ported port snap) wasmPath inherited = .ok k := by
  obtain ⟨⟨port, snapPath, wasmPath⟩, hargs, h⟩ := bind_ok h
  obtain ⟨snap, hread, h⟩ := bind_ok h
  obtain ⟨snap', hported, h⟩ := bind_ok h
  obtain ⟨inherited, henv, h⟩ := bind_ok h
  have hfile : ∃ snapPath, parseServeArgv args = .ok (port, snapPath, wasmPath) ∧
      readSnapshotFile d snapPath = .ok snap := ⟨snapPath, ofCli_ok hargs, ofSnapshot_ok hread⟩
  cases port with
  | none =>
    cases hported
    refine ⟨none, wasmPath, snap, inherited, ⟨hfile, ofCli_ok henv, by simp⟩, ?_⟩
    rw [ported_none]
    exact h
  | some port =>
    obtain ⟨hasked, rfl⟩ := overrideSnapshotPort_ok (ofCli_ok (x := overrideSnapshotPort snap port) hported)
    exact ⟨some port, wasmPath, snap, inherited, ⟨hfile, ofCli_ok henv, fun _ => hasked⟩, h⟩

structure Serving (engine : Engine) (p : Process) (d : Disk) (snap : KernelSnapshot) (wasmPath : String)
    (inherited : List (UInt32 × Int32)) (loaded restored k : Kernel) : Prop where
  loads : ∃ bytes, readModule d "serve" wasmPath = .ok bytes ∧
    engine.load bytes (.new [] [] p.vfs p.seed) = .ok loaded ∧ verifyModuleHash engine snap bytes = .ok ()
  restores : serveFds p.host p.parent snap inherited loaded = .ok restored
  memory : ∃ target m, restored.memory = some (.owned target) ∧ applySnapshotToMemory snap target = .ok m ∧
    k = { restored with memory := some (.owned m) }

theorem serveLoop_ok (h : serveLoop engine p d snap wasmPath inherited = .ok k) :
    ∃ loaded restored, Serving engine p d snap wasmPath inherited loaded restored k := by
  obtain ⟨bytes, hbytes, h⟩ := bind_ok h
  obtain ⟨loaded, hload, h⟩ := bind_ok h
  obtain ⟨_, hhash, h⟩ := bind_ok h
  obtain ⟨restored, hrestore, h⟩ := bind_ok h
  refine ⟨loaded, restored, ⟨bytes, hbytes, hload, hhash⟩, ofSnapshot_ok hrestore, ?_⟩
  split at h
  · cases h
  · rename_i mem hmem
    obtain ⟨m, hm, h⟩ := bind_ok h
    cases h
    exact ⟨mem, m, Kernel.ownedMemory_ok hmem, ofSnapshot_ok hm, rfl⟩

theorem serveFds_ok (h : serveFds host parent snap inherited k = .ok k') :
    ∃ k₁, applySnapshotKernelState host snap (k.attachInheritedListeners parent inherited).2 = .ok k₁ ∧
      applySnapshotInheritedListeners snap k₁ (k.attachInheritedListeners parent inherited).1 = .ok k' := bind_ok h

def given (parent : ParentFds) (inherited : List (UInt32 × Int32)) (fd : UInt32) : Option SocketInner :=
  inherited.findSome? fun (slot, source) => if slot = fd then Kernel.wrapListener parent fd source else none

theorem attachInheritedListeners_given (parent : ParentFds) (inherited : List (UInt32 × Int32)) (fd : UInt32)
    (k : Kernel) : given parent inherited fd =
      ((k.attachInheritedListeners parent inherited).1.find? fun l => l.1 = fd).map fun l =>
        (k.attachInheritedListeners parent inherited).2.cells.sockets.read l.2 := by
  induction inherited generalizing k with
  | nil => rfl
  | cons first rest ih =>
    obtain ⟨slot, source⟩ := first
    cases hw : Kernel.wrapListener parent slot source with
    | none =>
      have hskip : given parent ((slot, source) :: rest) fd = given parent rest fd := by
        refine List.findSome?_cons_of_isNone ?_
        by_cases hslot : slot = fd
        · subst hslot
          simp [hw]
        · simp [hslot]
      rw [hskip, ih k]
      simp only [Kernel.attachInheritedListeners, hw]
    | some inner =>
      have hrest := attachInheritedListeners_wrapped parent rest (k.attachShared slot inner).2
      simp only [Kernel.attachInheritedListeners, hw]
      by_cases hslot : slot = fd
      · subst hslot
        have hread := hrest.ext.sockets.read_eq k.cells.sockets.next (Nat.lt_succ_self _)
        rw [List.find?_cons_of_pos (by simp), given, List.findSome?_cons_of_isSome (by simp [hw])]
        simp only [Kernel.attachShared, Heap.alloc_fst, Heap.read_alloc_new] at hread ⊢
        simp [hread, hw]
      · rw [List.find?_cons_of_neg (by simpa using hslot), ← ih, given, List.findSome?_cons_of_isNone (by simp [hslot])]
        rfl

-- ---------------------------------------------------------------------------
-- The sockets that are served
-- ---------------------------------------------------------------------------

def Holds (k : Kernel) (fd : UInt32) (s : SocketInner) : Prop :=
  ∃ ref, k.fds.table.get? fd = some (.socket ref) ∧ k.cells.sockets.read ref = s

/-- The table that `serve` builds of the snapshot in its file, with the port it was told. -/
structure ServedTable (p : Process) (port : Option UInt16) (snap : KernelSnapshot)
    (inherited : List (UInt32 × Int32)) (k : Kernel) : Prop where
  opened : ∀ e ∈ snap.fds.entries, isInherited e.kind = false → ∀ sock, Inet e sock →
    ∃ recorded addr listener, sock.bound = some (.v4 recorded addr) ∧
      p.host.bindTcp e.fd (port.getD recorded) addr = .ok listener ∧
      Holds k e.fd (.fromTcpListener listener (.v4 (port.getD recorded) addr) sock.soReuseaddr sock.nonblock)
  others : ∀ e ∈ snap.fds.entries, isInherited e.kind = false → (∀ sock, ¬ Inet e sock) →
    ∃ r c, k.fds.table.get? e.fd = some r ∧ Rebuilt p.host c k.cells e r
  handed : ∀ e ∈ snap.fds.entries, (∀ e' ∈ snap.fds.entries, e'.fd = e.fd → isInherited e'.kind = true) →
    ∀ inner, given p.parent inherited e.fd = some inner → Holds k e.fd inner
  only : ∀ fd, (k.fds.table.get? fd).isSome → ∃ e ∈ snap.fds.entries, e.fd = fd ∧
    (isInherited e.kind = false ∨ (given p.parent inherited fd).isSome)

theorem servedTable (h : serveFds p.host p.parent (ported port snap) inherited k = .ok k') :
    ServedTable p port snap inherited k' := by
  obtain ⟨k₁, hk₁, hk'⟩ := serveFds_ok h
  have hwrap := attachInheritedListeners_wrapped p.parent inherited k
  have hgiven (fd : UInt32) := attachInheritedListeners_given p.parent inherited fd k
  generalize k.attachInheritedListeners p.parent inherited = attached at *
  obtain ⟨listeners, attached⟩ := attached
  have hfill := (filled_of_apply hk₁).1
  cases hk'
  -- What the first pass puts in the table is made of the entry, and stays.
  have hmade : ∀ e ∈ snap.fds.entries, isInherited e.kind = false → ∃ r c₁ c₂,
      (listeners.foldl (attachListener (inheritedFds (ported port snap))) k₁.fds).table.get? e.fd = some r ∧
        restoreResource p.host c₁ e.fd (portedEntry port e).kind = .ok (r, c₂) ∧ c₂.Extends k₁.cells := by
    intro e he hi
    obtain ⟨r, hr, c₁, c₂, -, hres, hext⟩ := hfill.rebuilt (portedEntry port e) (mem_ported he)
      ((isInherited_ported port e).trans hi)
    rw [portedEntry_fd] at hr hres
    exact ⟨r, c₁, c₂, get?_attach_old hr, hres, hext⟩
  constructor
  · intro e he hi sock hinet
    obtain ⟨r, c₁, c₂, hr, hres, hext⟩ := hmade e he hi
    have hkind : (portedEntry port e).kind.kind = .socket := by
      cases port with
      | none => exact hinet.kind
      | some port => exact (withPort_same port e).2.1.trans hinet.kind
    simp only [restoreResource, hkind] at hres
    obtain ⟨recorded, addr, listener, hbound, hopen, rfl, rfl⟩ := restoreSocket_ported hinet hres
    refine ⟨recorded, addr, listener, hbound, hopen, c₁.sockets.next, hr, ?_⟩
    exact (hext.sockets.read_eq _ (Nat.lt_succ_self _)).trans (Heap.read_alloc_new _ _)
  · intro e he hi hno
    obtain ⟨r, c₁, c₂, hr, hres, hext⟩ := hmade e he hi
    rw [restoreResource_ported hno] at hres
    exact ⟨r, c₁, hr, c₁, c₂, .refl _, hres, hext⟩
  · intro e he hall inner hinner
    obtain ⟨l, hl, rfl⟩ := Option.map_eq_some_iff.mp ((hgiven e.fd).symm.trans hinner)
    have hlt := (hwrap.wrapped l (List.mem_of_find?_eq_some hl)).1
    have hfree : k₁.fds.table.get? e.fd = none := by
      by_contra hne
      rcases hfill.bound (Option.isSome_iff_ne_none.mpr hne) with hold | ⟨e', he', hi', heq⟩
      · cases hold
      · obtain ⟨e₀, he₀, rfl⟩ := List.mem_map.mp he'
        rw [portedEntry_fd] at heq
        rw [isInherited_ported, hall e₀ he₀ heq] at hi'
        cases hi'
    have hin : e.fd ∈ inheritedFds (ported port snap) := by
      rw [inheritedFds_ported]
      exact mem_inheritedFds.mpr ⟨e, he, hall e he rfl, rfl⟩
    refine ⟨l.2, ?_, hfill.ext.sockets.read_eq _ hlt⟩
    have hattached := get?_attach_first listeners hin hfree
    rw [hl] at hattached
    exact hattached
  · intro fd hsome
    by_cases hl : ∃ l ∈ listeners, l.1 ∈ inheritedFds (ported port snap) ∧ l.1 = fd
    · obtain ⟨l, hl, hin, rfl⟩ := hl
      rw [inheritedFds_ported] at hin
      obtain ⟨e, he, -, heq⟩ := mem_inheritedFds.mp hin
      refine ⟨e, he, heq, .inr ?_⟩
      rw [hgiven, Option.isSome_map, List.find?_isSome]
      exact ⟨l, hl, by simp⟩
    · rw [get?_attach_other fun l hm hi heq => hl ⟨l, hm, hi, heq⟩] at hsome
      rcases hfill.bound hsome with hold | ⟨e', he', hi', heq⟩
      · cases hold
      · obtain ⟨e, he, rfl⟩ := List.mem_map.mp he'
        exact ⟨e, he, (portedEntry_fd port e).symm.trans heq, .inl ((isInherited_ported port e).symm.trans hi')⟩

/-- What `serve` builds: the listeners of the internet family that it opens are at the port it
was told, those of the parent where they were, and the rest as recorded. -/
theorem serve_opens (engine : Engine) (p : Process) (d : Disk) (args : List String)
    (h : serveMain engine p d args = .ok k) : ∃ port wasmPath snap inherited,
      ServeInput p d args port wasmPath snap inherited ∧ ServedTable p port snap inherited k := by
  obtain ⟨port, wasmPath, snap, inherited, hin, h⟩ := serveMain_ok h
  obtain ⟨loaded, restored, hserving⟩ := serveLoop_ok h
  obtain ⟨target, m, -, -, rfl⟩ := hserving.memory
  obtain ⟨hopened, hothers, hhanded, honly⟩ := servedTable hserving.restores
  exact ⟨port, wasmPath, snap, inherited, hin, hopened, hothers, hhanded, honly⟩

end

-- ---------------------------------------------------------------------------
-- A web server at another port
-- ---------------------------------------------------------------------------

def soloKernel : Kernel :=
  (Sys.insertSocket { Kernel.new [] [] { root := "/", cwd := "/" } (Vector.replicate 32 0) with fds := .empty } webListener).2

def soloFiles : HostTree.Files :=
  HashMap.ofList [([], .dir), ([[115]], .file 0), ([[119]], .file 1)]

theorem soloFiles_numbered : ∀ l ino, soloFiles.get? l = some (.file ino) → ino < 2 := by
  intro l ino h
  have hmem := HashMap.get?_eq_some_iff.mp h
  simp [soloFiles, HashMap.ofList, HashMap.insert, HashMap.erase, HashMap.empty] at hmem
  omega

def soloDisk : Disk where
  files := soloFiles
  contents := fun ino => if ino = 0 then encodeSnapshot (tryToSnapshot soloKernel) else [0, 97, 115, 109]
  cwd := []
  nextIno := 2
  numbered := soloFiles_numbered

section
open Postcard Codec

theorem none_valid (c : Codec α) : c.option.valid none := by
  rintro _ ⟨⟩

theorem some_valid {c : Codec α} (h : c.valid a) : c.option.valid (some a) := by
  rintro _ ⟨⟩
  exact h

theorem socket_valid (s : SocketSnapshot) (hbound : Wire.sockAddr.option.valid s.bound)
    (hpeek : s.peekBuf.length < 2 ^ 64) (hunix : s.unixInner = none) : Wire.socket.valid s := by
  have hbacklog : leI32.option.valid s.listenBacklog := fun _ _ => leU32_valid _
  have hinner : Wire.unixSock.option.valid s.unixInner := hunix ▸ none_valid _
  exact ⟨⟨trivial, trivial, hbound, hbacklog, trivial, trivial, trivial, trivial, leU32_valid _, trivial, trivial,
    ⟨usize_valid hpeek, fun _ _ => trivial⟩, trivial, hinner⟩, trivial⟩

theorem solo_fds : fdSnapshot soloKernel.cells soloKernel.fds =
    { entries := [{ fd := 3, kind := .fromSocket webListener.snapshot }], nextFd := 4, cloexec := [] } := rfl

theorem solo_encodable : Snapshot.Encodable (tryToSnapshot soloKernel) := by
  have haddr : Wire.sockAddr.valid (.v4 8080 Sys.LOCALHOST) := ⟨UInt16.toNat_lt _, array_byte_valid _⟩
  have hsocket := socket_valid webListener.snapshot (some_valid haddr) (by decide) rfl
  have hkind : Wire.resource.valid (.fromSocket webListener.snapshot) :=
    ⟨trivial, none_valid _, none_valid _, some_valid hsocket, none_valid _, none_valid _⟩
  have hfds : Wire.fds.valid (fdSnapshot soloKernel.cells soloKernel.fds) := by
    rw [solo_fds]
    refine ⟨⟨usize_valid (by decide), ?_⟩, leU32_valid _, seq_nil_valid _⟩
    simp only [List.mem_singleton, forall_eq]
    exact ⟨leU32_valid _, hkind⟩
  exact ⟨leU32_valid _, seq_nil_valid _, hfds, asking_rest_valid, array_byte_valid _⟩

end

def soloEngine : Engine where
  sha256 _ := Vector.replicate 32 1
  instantiate _ kernel := .ok (kernel, some .zeroPage)
  callStart _ kernel d := (kernel, d)

def soloProcess : Process where
  host := bindingHost
  parent := listeningParent
  env := []
  vfs := { root := "/", cwd := "/" }
  seed := Vector.replicate 32 0

theorem solo_file : readSnapshotFile soloDisk "/s" = .ok (tryToSnapshot soloKernel) := by
  have hfound : soloDisk.found (bytesOf "/s") = true := rfl
  have hread : soloDisk.read (bytesOf "/s") = .ok (encodeSnapshot (tryToSnapshot soloKernel)) := rfl
  simp only [readSnapshotFile, hfound, hread, decodeSnapshot_encodeSnapshot solo_encodable]
  rfl

theorem solo_served : ∃ k, serveMain soloEngine soloProcess soloDisk ["--port", "9090", "/s", "/w"] = .ok k := by
  have hargs : parseServeArgv ["--port", "9090", "/s", "/w"] = .ok (some 9090, "/s", "/w") := by decide
  have hrest : ∃ k, serveLoop soloEngine soloProcess soloDisk (ported (some 9090) (tryToSnapshot soloKernel)) "/w" [] =
      .ok k := ⟨_, rfl⟩
  have hport : overrideSnapshotPort (tryToSnapshot soloKernel) 9090 =
      .ok (ported (some 9090) (tryToSnapshot soloKernel)) := rfl
  have henv : parseInheritedFds soloProcess.env = .ok [] := rfl
  obtain ⟨k, hk⟩ := hrest
  refine ⟨k, ?_⟩
  simp only [serveMain, hargs, ofCli, bind, Except.bind, solo_file, ofSnapshot, overrideIfTold, hport, henv, hk]

theorem serve_opens_web : ∃ k port wasmPath snap inherited,
    serveMain soloEngine soloProcess soloDisk ["--port", "9090", "/s", "/w"] = .ok k ∧
      ServeInput soloProcess soloDisk ["--port", "9090", "/s", "/w"] port wasmPath snap inherited ∧
        ServedTable soloProcess port snap inherited k := by
  obtain ⟨k, hk⟩ := solo_served
  obtain ⟨port, wasmPath, snap, inherited, h⟩ := serve_opens _ _ _ _ hk
  exact ⟨k, port, wasmPath, snap, inherited, hk, h⟩

end EdgeLibos.Cli
