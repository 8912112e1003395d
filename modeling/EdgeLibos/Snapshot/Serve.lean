import EdgeLibos.Snapshot.Fixpoint

/-!
# Serving a snapshot

`serve` wraps the listeners its parent hands over, applies the snapshot, which
empties the table and passes over the inherited entries, and then puts the
wrapped listeners back at the descriptors they were frozen at.
-/

namespace EdgeLibos

open Lib Snapshot

def SocketInner.fromInheritedListener (listener : TcpListener) (bound : SockAddr) : SocketInner :=
  { SocketInner.new .stream false with
    listener := some listener
    bound := some bound
    listenBacklog := some 0
    soReuseaddr := true
    isAcceptor := true
    inherited := true }

/-- A `std::net::SocketAddr`. -/
inductive SocketAddr where
  | v4 (port : UInt16) (addr : Vector UInt8 4)
  | v6 (port : UInt16) (addr : Vector UInt8 16)

def SocketAddr.toSockAddr : SocketAddr → SockAddr
  | .v4 port addr => .v4 port addr
  | .v6 port addr => .v6 port addr

/-- What the host answers about the descriptors of the parent, `dup` for the
descriptor it is wanted at. -/
structure ParentFds where
  dup : UInt32 → Int32 → Int32
  /-- `TcpListener::from_std` on the duplicate. -/
  fromStd : Int32 → Except IoError TcpListener
  localAddr : Int32 → Except IoError SocketAddr

namespace Kernel

/-- One round of the loop: the listener wrapped around a descriptor of the parent. -/
def wrapListener (parent : ParentFds) (targetFd : UInt32) (sourceFd : Int32) : Option SocketInner :=
  if sourceFd < 0 then none
  else
    let dupFd := parent.dup targetFd sourceFd
    if dupFd < 0 then none
    else
      match parent.fromStd dupFd, parent.localAddr dupFd with
      | .ok listener, .ok bound => some (.fromInheritedListener listener bound.toSockAddr)
      | _, _ => none

/-- The wrapped listener goes into a cell of its own. At an occupied descriptor
it is not bound, but it is returned all the same. -/
def attachShared (k : Kernel) (targetFd : UInt32) (inner : SocketInner) : Nat × Kernel :=
  let (shared, sockets) := k.cells.sockets.alloc inner
  let fds :=
    match k.fds.insertAt targetFd (.socket shared) with
    | .ok (_, fds) => fds
    | .error _ => k.fds
  (shared, { k with fds, cells := { k.cells with sockets } })

def attachInheritedListeners (parent : ParentFds) :
    List (UInt32 × Int32) → Kernel → List (UInt32 × Nat) × Kernel
  | [], k => ([], k)
  | (targetFd, sourceFd) :: rest, k =>
    match wrapListener parent targetFd sourceFd with
    | none => attachInheritedListeners parent rest k
    | some inner =>
      let (shared, k) := k.attachShared targetFd inner
      let (out, k) := attachInheritedListeners parent rest k
      ((targetFd, shared) :: out, k)

end Kernel

namespace Snapshot

def inheritedFds (snap : KernelSnapshot) : List UInt32 :=
  (snap.fds.entries.filter fun e => isInherited e.kind).map (·.fd)

def attachListener (inherited : List UInt32) (t : FdTable) (l : UInt32 × Nat) : FdTable :=
  if inherited.contains l.1 then
    match t.insertAt l.1 (.socket l.2) with
    | .ok (_, t) => t
    | .error _ => t
  else t

def applySnapshotInheritedListeners (snap : KernelSnapshot) (kernel : Kernel)
    (listeners : List (UInt32 × Nat)) : Except SnapshotError Kernel :=
  .ok { kernel with fds := listeners.foldl (attachListener (inheritedFds snap)) kernel.fds }

/-- The steps of `serve` that build the descriptor table. -/
def serveFds (host : Host) (parent : ParentFds) (snap : KernelSnapshot)
    (inherited : List (UInt32 × Int32)) (kernel : Kernel) : Except SnapshotError Kernel := do
  let (preattached, kernel) := kernel.attachInheritedListeners parent inherited
  let kernel ← applySnapshotKernelState host snap kernel
  applySnapshotInheritedListeners snap kernel preattached

-- ---------------------------------------------------------------------------
-- Restoring any resource
-- ---------------------------------------------------------------------------

theorem between_socket (c : Cells) (s : SocketInner) :
    c.Extends { c with sockets := (c.sockets.alloc s).2 } ∧
      Resource.Between c { c with sockets := (c.sockets.alloc s).2 } (.socket c.sockets.next) := by
  refine ⟨⟨.refl _, .refl _, Heap.extends_alloc _ _⟩, ?_, ?_, ?_⟩
  · rintro _ ⟨⟩
  · rintro _ ⟨⟩
  · rintro n ⟨⟩
    exact ⟨le_refl _, Nat.lt_succ_self _⟩

theorem between_pipe (make : Nat → Nat → Resource) (hp : ∀ p n, (make p n).pipe? = some p)
    (h : (restorePipe c body).map (fun x => (make x.1.1 x.1.2, x.2)) = .ok (r, c')) :
    c.Extends c' ∧ r.Between c c' := by
  unfold restorePipe at h
  cases hb : body.pipe with
  | none => simp [hb, Except.map] at h
  | some snap =>
    simp only [hb] at h
    cases h
    refine ⟨(c.extends_newPipe _).trans (Cells.extends_newNotify _), .of_pipe (hp _ _) ?_ ?_⟩
    · exact le_refl _
    · exact Nat.lt_succ_self _

theorem withCtx_bind_ok {x : Except IoError α} {f : α → Except SnapshotError β}
    (h : (withCtx ctx x >>= f) = .ok b) : ∃ a, x = .ok a ∧ f a = .ok b := by
  cases x with
  | error e => cases h
  | ok a => exact ⟨a, rfl, h⟩

inductive SocketReopened (host : Host) (fd : UInt32) (sock : SocketSnapshot) : SocketInner → Prop
  | unix (family : sock.familyUnix = true) (path : filesystemPath sock = some p) :
      SocketReopened host fd sock (.fromUnixListener p sock.nonblock)
  | tcp (family : sock.familyUnix = false) (acceptor : sock.isAcceptor = true)
      (bound : sock.bound = some (.v4 port addr)) (opened : host.bindTcp fd port addr = .ok listener) :
      SocketReopened host fd sock (.fromTcpListener listener (.v4 port addr) sock.soReuseaddr sock.nonblock)

theorem restoreUnixListener_ok (family : sock.familyUnix = true)
    (h : restoreUnixListener host c fd sock = .ok (r, c')) : ∃ s, SocketReopened host fd sock s ∧
      r = .socket c.sockets.next ∧ c' = { c with sockets := (c.sockets.alloc s).2 } := by
  unfold restoreUnixListener at h
  cases hp : filesystemPath sock with
  | none => simp [hp] at h
  | some path =>
    simp only [hp] at h
    split at h
    · cases h
    · obtain ⟨_, -, h⟩ := withCtx_bind_ok h
      cases h
      exact ⟨_, .unix family hp, rfl, rfl⟩

theorem restoreTcpListener_ok (family : sock.familyUnix = false)
    (h : restoreTcpListener host c fd sock = .ok (r, c')) : ∃ s, SocketReopened host fd sock s ∧
      r = .socket c.sockets.next ∧ c' = { c with sockets := (c.sockets.alloc s).2 } := by
  unfold restoreTcpListener at h
  split at h
  · cases h
  · rename_i acceptor
    cases hb : sock.bound with
    | none => simp [hb] at h
    | some bound =>
      cases bound with
      | v4 port addr =>
        simp only [hb] at h
        obtain ⟨listener, hopen, h⟩ := withCtx_bind_ok h
        have hmade := SocketReopened.tcp family (by simpa using acceptor) hb hopen
        split at h
        · obtain ⟨_, -, h⟩ := withCtx_bind_ok h
          obtain ⟨_, -, h⟩ := withCtx_bind_ok h
          cases h
          exact ⟨_, hmade, rfl, rfl⟩
        · obtain ⟨_, -, h⟩ := withCtx_bind_ok h
          cases h
          exact ⟨_, hmade, rfl, rfl⟩
      | v6 port addr => simp [hb] at h
      | unix path => simp [hb] at h

theorem restoreSocket_ok (h : restoreSocket host c fd body = .ok (r, c')) :
    ∃ sock s, body.socket = some sock ∧ (sock.isAcceptor && sock.peerAddrPresent) = false ∧
      SocketReopened host fd sock s ∧ r = .socket c.sockets.next ∧
        c' = { c with sockets := (c.sockets.alloc s).2 } := by
  unfold restoreSocket at h
  split at h
  · cases h
  · rename_i sock hbody
    split at h
    · cases h
    · rename_i hpeer
      have hpeer := Bool.not_eq_true _ ▸ hpeer
      split at h
      · rename_i family
        obtain ⟨s, hmade, hr, hc⟩ := restoreUnixListener_ok family h
        exact ⟨sock, s, hbody, hpeer, hmade, hr, hc⟩
      · rename_i family
        obtain ⟨s, hmade, hr, hc⟩ := restoreTcpListener_ok (Bool.not_eq_true _ ▸ family) h
        exact ⟨sock, s, hbody, hpeer, hmade, hr, hc⟩

/-- Whatever the body, the resource is made of new cells. -/
theorem restoreResource_between (h : restoreResource host c fd s = .ok (r, c')) :
    c.Extends c' ∧ r.Between c c' := by
  obtain ⟨kind, body⟩ := s
  cases kind with
  | stdin => exact between_pipe (fun pipe notify => .stdin { pipe, notify }) (fun _ _ => rfl) h
  | stdout => exact between_pipe (fun pipe notify => .stdout { pipe, notify }) (fun _ _ => rfl) h
  | stderr => exact between_pipe (fun pipe notify => .stderr { pipe, notify }) (fun _ _ => rfl) h
  | pipeRead => exact between_pipe (fun pipe notify => .pipeRead { pipe, notify }) (fun _ _ => rfl) h
  | pipeWrite =>
    exact between_pipe (fun pipe notify => .pipeWrite { pipe, notify }) (fun _ _ => rfl) h
  | file =>
    obtain ⟨fsnap, path, f, -, -, -, -, -, rfl, rfl⟩ := restoreFile_ok h
    refine ⟨⟨.refl _, Heap.extends_alloc _ _, .refl _⟩, ?_, ?_, ?_⟩
    · rintro _ ⟨⟩
    · rintro n ⟨⟩
      exact ⟨le_refl _, Nat.lt_succ_self _⟩
    · rintro _ ⟨⟩
  | socket =>
    obtain ⟨_, s, -, -, -, rfl, rfl⟩ := restoreSocket_ok h
    exact between_socket c s
  | epoll =>
    simp only [restoreResource, restoreEpoll] at h
    split at h
    · cases h
    · cases h
      refine ⟨?_, .of_none rfl rfl rfl⟩
      exact (restoreEpollEntries_ok _ _).1.trans (Cells.extends_newNotify _)
  | eventFd =>
    simp only [restoreResource, restoreEventFd] at h
    split at h
    · cases h
    · cases h
      exact ⟨c.extends_newNotify, .of_none rfl rfl rfl⟩

-- ---------------------------------------------------------------------------
-- The first pass: everything but the inherited entries
-- ---------------------------------------------------------------------------

/-- The resource was made from the entry somewhere on the way from `c` to `c'`. -/
structure Rebuilt (host : Host) (c c' : Cells) (e : FdEntrySnapshot) (r : Resource) : Prop where
  made : ∃ c₁ c₂, c.Extends c₁ ∧ restoreResource host c₁ e.fd e.kind = .ok (r, c₂) ∧ c₂.Extends c'

theorem Rebuilt.between (h : Rebuilt host c c' e r) : r.Between c c' := by
  obtain ⟨c₁, c₂, hc₁, hres, hc₂⟩ := h.made
  exact ((restoreResource_between hres).2.earlier hc₁).later hc₂

structure Filled (host : Host) (es : List FdEntrySnapshot) (t : FdTable) (c : Cells) (t' : FdTable)
    (c' : Cells) : Prop where
  ext : c.Extends c'
  kept : t.table.get? fd = some r → t'.table.get? fd = some r
  rebuilt : ∀ e ∈ es, isInherited e.kind = false →
    ∃ r, t'.table.get? e.fd = some r ∧ Rebuilt host c c' e r
  bound : (t'.table.get? fd).isSome → (t.table.get? fd).isSome ∨
    ∃ e ∈ es, isInherited e.kind = false ∧ e.fd = fd

theorem restoreEntry_cases (h : restoreEntry host (t, c) e = .ok (t', c')) :
    (isInherited e.kind = true ∧ t' = t ∧ c' = c) ∨
    (isInherited e.kind = false ∧ t.table.get? e.fd = none ∧
      ∃ r, restoreResource host c e.fd e.kind = .ok (r, c') ∧ t'.table = t.table.insert e.fd r) := by
  cases hi : isInherited e.kind with
  | true =>
    simp only [restoreEntry, hi, if_true] at h
    cases h
    exact .inl ⟨rfl, rfl, rfl⟩
  | false =>
    refine .inr ⟨rfl, ?_⟩
    simp only [restoreEntry, hi, Bool.false_eq_true, if_false] at h
    cases hres : restoreResource host c e.fd e.kind with
    | error err => simp [hres] at h
    | ok rc =>
      obtain ⟨r, c₁⟩ := rc
      simp only [hres, FdTable.insertAt, HashMap.containsKey] at h
      cases hget : t.table.get? e.fd with
      | some r₀ => simp [hget] at h
      | none =>
        simp only [hget, Option.isSome_none, Bool.false_eq_true, if_false] at h
        cases h
        exact ⟨rfl, r, rfl, rfl⟩

theorem restoreEntries_filled (h : restoreEntries host es (t, c) = .ok (t', c')) :
    Filled host es t c t' c' := by
  induction es generalizing t c with
  | nil =>
    cases h
    exact ⟨.refl _, id, by simp, .inl⟩
  | cons e es ih =>
    cases hentry : restoreEntry host (t, c) e with
    | error err => simp [restoreEntries, hentry] at h
    | ok st =>
      obtain ⟨t₁, c₁⟩ := st
      simp only [restoreEntries, hentry] at h
      have hrest := ih h
      rcases restoreEntry_cases hentry with ⟨hi, rfl, rfl⟩ | ⟨hi, hnew, r, hres, ht₁⟩
      · refine ⟨hrest.ext, hrest.kept, ?_, fun hb => ?_⟩
        · intro e' he' hi'
          rcases List.mem_cons.mp he' with rfl | he'
          · rw [hi] at hi'
            cases hi'
          · exact hrest.rebuilt e' he' hi'
        · rcases hrest.bound hb with hb | ⟨e', he', hfd⟩
          · exact .inl hb
          · exact .inr ⟨e', List.mem_cons_of_mem _ he', hfd⟩
      · have hext := (restoreResource_between hres).1
        refine ⟨hext.trans hrest.ext, fun hget => hrest.kept ?_, ?_, fun hb => ?_⟩
        · rw [ht₁, HashMap.get?_insert, if_neg, hget]
          rintro rfl
          simp [hnew] at hget
        · intro e' he' hi'
          rcases List.mem_cons.mp he' with rfl | he'
          · refine ⟨r, hrest.kept ?_, ⟨c, c₁, .refl _, hres, hrest.ext⟩⟩
            rw [ht₁, HashMap.get?_insert, if_pos rfl]
          · obtain ⟨r', hr', c₂, c₃, h₂, hres', h₃⟩ := hrest.rebuilt e' he' hi'
            exact ⟨r', hr', c₂, c₃, hext.trans h₂, hres', h₃⟩
        · rcases hrest.bound hb with hb | ⟨e', he', hfd⟩
          · rw [ht₁, HashMap.get?_insert] at hb
            split at hb
            · rename_i heq
              exact .inr ⟨e, List.mem_cons_self .., hi, heq.symm⟩
            · exact .inl hb
          · exact .inr ⟨e', List.mem_cons_of_mem _ he', hfd⟩

theorem restoreFds_filled (h : restoreFds host snap c = .ok (t, c')) :
    Filled host snap.entries .empty c t c' ∧ t.nextFd = snap.nextFd := by
  unfold restoreFds at h
  cases hrun : restoreEntries host (sortByKey (fun e => e.fd.toNat) snap.entries) (.empty, c) with
  | error err => simp [hrun] at h
  | ok st =>
    obtain ⟨t₁, c₁⟩ := st
    simp only [hrun, Except.ok.injEq, Prod.mk.injEq] at h
    obtain ⟨rfl, rfl⟩ := h
    have hfill := restoreEntries_filled hrun
    rw [foldl_setCloexec]
    refine ⟨⟨hfill.ext, hfill.kept, ?_, fun hb => ?_⟩, rfl⟩
    · intro e he
      exact hfill.rebuilt e (mem_sortByKey.mpr he)
    · rcases hfill.bound hb with hb | ⟨e, he, hfd⟩
      · exact .inl hb
      · exact .inr ⟨e, mem_sortByKey.mp he, hfd⟩

theorem extends_rebuildEntries (l : List FutexAddrSnapshot) (m : HashMap UInt32 FutexEntry)
    (c : Cells) : c.Extends (rebuildEntries l m c).2 := by
  induction l generalizing m c with
  | nil => exact .refl _
  | cons f rest ih => exact c.extends_newNotify.trans (ih _ _)

theorem filled_of_apply (h : applySnapshotKernelState host snap kernel = .ok k) :
    Filled host snap.fds.entries .empty kernel.cells k.fds k.cells ∧ k.fds.nextFd = snap.fds.nextFd := by
  obtain ⟨-, fds, cells, hfds, rfl⟩ := applySnapshotKernelState_eq_ok.mp h
  obtain ⟨hfill, hnext⟩ := restoreFds_filled hfds
  have hext : kernel.cells.Extends (rebuildFromSnapshot snap.futexTable kernel.cells).2 :=
    extends_rebuildEntries _ _ _
  refine ⟨⟨hext.trans hfill.ext, hfill.kept, ?_, hfill.bound⟩, hnext⟩
  intro e he hi
  obtain ⟨r, hr, c₁, c₂, h₁, hres, h₂⟩ := hfill.rebuilt e he hi
  exact ⟨r, hr, c₁, c₂, hext.trans h₁, hres, h₂⟩

-- ---------------------------------------------------------------------------
-- The second pass: the inherited entries
-- ---------------------------------------------------------------------------

theorem mem_inheritedFds : fd ∈ inheritedFds snap ↔
    ∃ e ∈ snap.fds.entries, isInherited e.kind = true ∧ e.fd = fd := by
  simp [inheritedFds, and_assoc]

section
variable {inherited : List UInt32} {t : FdTable} {l : UInt32 × Nat} {listeners : List (UInt32 × Nat)}

theorem attachListener_of_not_mem (h : l.1 ∉ inherited) : attachListener inherited t l = t := by
  simp [attachListener, h]

theorem get?_attachListener : (attachListener inherited t l).table.get? fd =
    if l.1 ∈ inherited ∧ fd = l.1 ∧ t.table.get? fd = none then some (.socket l.2)
    else t.table.get? fd := by
  by_cases hm : l.1 ∈ inherited
  · cases hget : t.table.get? l.1 with
    | some r =>
      have hc : t.table.containsKey l.1 = true := by simp [HashMap.containsKey, hget]
      simp only [attachListener, List.contains_iff_mem, hm, if_true, FdTable.insertAt, hc, true_and]
      rw [if_neg]
      rintro ⟨rfl, hnone⟩
      simp [hget] at hnone
    | none =>
      have hc : t.table.containsKey l.1 = false := by simp [HashMap.containsKey, hget]
      simp only [attachListener, List.contains_iff_mem, hm, if_true, FdTable.insertAt, hc,
        Bool.false_eq_true, if_false, true_and, HashMap.get?_insert]
      by_cases hfd : fd = l.1
      · simp [hfd, hget]
      · simp [hfd]
  · simp [attachListener_of_not_mem hm, hm]

theorem get?_attach_old (h : t.table.get? fd = some r) :
    (listeners.foldl (attachListener inherited) t).table.get? fd = some r := by
  induction listeners generalizing t with
  | nil => exact h
  | cons l rest ih =>
    refine ih ?_
    rw [get?_attachListener, if_neg, h]
    rintro ⟨-, -, hnone⟩
    simp [h] at hnone

theorem get?_attach_other (h : ∀ l ∈ listeners, l.1 ∈ inherited → l.1 ≠ fd) :
    (listeners.foldl (attachListener inherited) t).table.get? fd = t.table.get? fd := by
  induction listeners generalizing t with
  | nil => rfl
  | cons l rest ih =>
    rw [List.foldl_cons, ih fun l' hl' => h l' (List.mem_cons_of_mem _ hl'), get?_attachListener,
      if_neg]
    rintro ⟨hm, heq, -⟩
    exact h l (List.mem_cons_self ..) hm heq.symm

theorem get?_attach_first (listeners : List (UInt32 × Nat)) (hm : fd ∈ inherited) (hnone : t.table.get? fd = none) :
    (listeners.foldl (attachListener inherited) t).table.get? fd =
      (listeners.find? fun l => l.1 = fd).map fun l => .socket l.2 := by
  induction listeners generalizing t with
  | nil => exact hnone
  | cons l rest ih =>
    rw [List.foldl_cons]
    by_cases hl : l.1 = fd
    · subst hl
      rw [List.find?_cons_of_pos (by simp)]
      refine get?_attach_old ?_
      rw [get?_attachListener, if_pos ⟨hm, rfl, hnone⟩]
    · rw [List.find?_cons_of_neg (by simpa using hl)]
      refine ih ?_
      rw [get?_attachListener, if_neg fun h => hl h.2.1.symm, hnone]

theorem get?_attach_new (hnodup : (listeners.map (·.1)).Nodup) (hl : l ∈ listeners)
    (hm : l.1 ∈ inherited) (hnone : t.table.get? l.1 = none) :
    (listeners.foldl (attachListener inherited) t).table.get? l.1 = some (.socket l.2) := by
  induction listeners generalizing t with
  | nil => cases hl
  | cons l' rest ih =>
    rw [List.map_cons, List.nodup_cons] at hnodup
    rw [List.foldl_cons]
    rcases List.mem_cons.mp hl with rfl | hl
    · refine get?_attach_old ?_
      rw [get?_attachListener, if_pos ⟨hm, rfl, hnone⟩]
    · refine ih hnodup.2 hl ?_
      rw [get?_attachListener, if_neg, hnone]
      rintro ⟨-, heq, -⟩
      exact hnodup.1 (List.mem_map.mpr ⟨l, hl, heq⟩)

theorem nextFd_attach (h : ∀ fd ∈ inherited, fd < t.nextFd) :
    (listeners.foldl (attachListener inherited) t).nextFd = t.nextFd := by
  induction listeners generalizing t with
  | nil => rfl
  | cons l rest ih =>
    have hstep : (attachListener inherited t l).nextFd = t.nextFd := by
      by_cases hm : l.1 ∈ inherited
      · simp only [attachListener, List.contains_iff_mem, hm, if_true, FdTable.insertAt]
        cases t.table.containsKey l.1 with
        | true => rfl
        | false => exact if_neg (UInt32.not_le.mpr (h l.1 hm))
      · rw [attachListener_of_not_mem hm]
    rw [List.foldl_cons, ih (by simpa only [hstep] using h), hstep]

theorem foldl_attach_filter : (listeners.filter fun l => inherited.contains l.1).foldl
    (attachListener inherited) t = listeners.foldl (attachListener inherited) t := by
  induction listeners generalizing t with
  | nil => rfl
  | cons l rest ih =>
    by_cases hm : l.1 ∈ inherited
    · simp only [List.filter_cons, List.contains_iff_mem, hm, if_true, List.foldl_cons, ih]
    · simp only [List.filter_cons, List.contains_iff_mem, hm, if_false, List.foldl_cons, ih,
        attachListener_of_not_mem hm]

end

-- ---------------------------------------------------------------------------
-- The table of a served kernel
-- ---------------------------------------------------------------------------

/-- The kernel `k` is `target` with the table of the snapshot, where `listeners`
stand in for what was inherited; `applied` is the kernel between the passes. -/
structure Assembled (host : Host) (snap : KernelSnapshot) (listeners : List (UInt32 × Nat))
    (target applied k : Kernel) : Prop where
  bound_iff : ∀ fd, (k.fds.table.get? fd).isSome = true ↔
    (∃ e ∈ snap.fds.entries, e.fd = fd ∧ isInherited e.kind = false) ∨
    (∃ e ∈ snap.fds.entries, e.fd = fd ∧ isInherited e.kind = true ∧ ∃ l ∈ listeners, l.1 = fd)
  rebuilt : ∀ e ∈ snap.fds.entries, isInherited e.kind = false →
    ∃ r, k.fds.table.get? e.fd = some r ∧ Rebuilt host target.cells k.cells e r ∧
      ∀ l ∈ listeners, l.2 < target.cells.sockets.next → r ≠ .socket l.2
  attached : ∀ e ∈ snap.fds.entries, isInherited e.kind = true → ∀ l ∈ listeners, l.1 = e.fd →
    k.fds.table.get? e.fd = some (.socket l.2)
  dropped : applySnapshotInheritedListeners snap applied
    (listeners.filter fun l => (inheritedFds snap).contains l.1) = .ok k
  cells : target.cells.Extends k.cells
  below : ∀ fd, (k.fds.table.get? fd).isSome = true → fd < k.fds.nextFd

theorem assembled_of_apply {snap : KernelSnapshot} {listeners : List (UInt32 × Nat)}
    (hfds : (snap.fds.entries.map (·.fd)).Nodup)
    (hbelow : ∀ e ∈ snap.fds.entries, e.fd < snap.fds.nextFd)
    (hdistinct : (listeners.map (·.1)).Nodup)
    (h : applySnapshotKernelState host snap target = .ok k₁)
    (h' : applySnapshotInheritedListeners snap k₁ listeners = .ok k₂) :
    Assembled host snap listeners target k₁ k₂ := by
  obtain ⟨hfill, hnext⟩ := filled_of_apply h
  cases h'
  -- An inherited descriptor is free after the first pass.
  have hfree : ∀ e ∈ snap.fds.entries, isInherited e.kind = true → k₁.fds.table.get? e.fd = none := by
    intro e he hi
    by_contra hne
    rcases hfill.bound (Option.isSome_iff_ne_none.mpr hne) with hold | ⟨e', he', hi', heq⟩
    · cases hold
    · rw [List.inj_on_of_nodup_map hfds he' he heq, hi] at hi'
      cases hi'
  have hbound : ∀ fd, ((listeners.foldl (attachListener (inheritedFds snap)) k₁.fds).table.get? fd).isSome
      = true → (∃ e ∈ snap.fds.entries, e.fd = fd ∧ isInherited e.kind = false) ∨
        (∃ e ∈ snap.fds.entries, e.fd = fd ∧ isInherited e.kind = true ∧ ∃ l ∈ listeners, l.1 = fd) := by
    intro fd hsome
    by_cases hl : ∃ l ∈ listeners, l.1 ∈ inheritedFds snap ∧ l.1 = fd
    · obtain ⟨l, hl, hm, rfl⟩ := hl
      obtain ⟨e, he, hi, heq⟩ := mem_inheritedFds.mp hm
      exact .inr ⟨e, he, heq, hi, l, hl, rfl⟩
    · rw [get?_attach_other fun l hm hi heq => hl ⟨l, hm, hi, heq⟩] at hsome
      rcases hfill.bound hsome with hold | ⟨e, he, hi, heq⟩
      · cases hold
      · exact .inl ⟨e, he, heq, hi⟩
  have hattached : ∀ e ∈ snap.fds.entries, isInherited e.kind = true → ∀ l ∈ listeners, l.1 = e.fd →
      (listeners.foldl (attachListener (inheritedFds snap)) k₁.fds).table.get? e.fd =
        some (.socket l.2) := by
    intro e he hi l hl heq
    rw [← heq]
    refine get?_attach_new hdistinct hl ?_ ?_
    · exact mem_inheritedFds.mpr ⟨e, he, hi, heq.symm⟩
    · rw [heq]
      exact hfree e he hi
  refine ⟨fun fd => ⟨hbound fd, ?_⟩, ?_, hattached, ?_, hfill.ext, fun fd hsome => ?_⟩
  · rintro (⟨e, he, rfl, hi⟩ | ⟨e, he, rfl, hi, l, hl, heq⟩)
    · obtain ⟨r, hr, -⟩ := hfill.rebuilt e he hi
      simp [get?_attach_old hr]
    · simp [hattached e he hi l hl heq]
  · intro e he hi
    obtain ⟨r, hr, hre⟩ := hfill.rebuilt e he hi
    refine ⟨r, get?_attach_old hr, hre, ?_⟩
    rintro l hl hold rfl
    exact Nat.not_lt.mpr (hre.between.socket l.2 rfl).1 hold
  · simp only [applySnapshotInheritedListeners, foldl_attach_filter]
  · have hall : ∀ e ∈ snap.fds.entries, e.fd < k₁.fds.nextFd := by
      rw [hnext]
      exact hbelow
    simp only
    rw [nextFd_attach]
    · rcases hbound fd hsome with ⟨e, he, rfl, -⟩ | ⟨e, he, rfl, -⟩
      · exact hall e he
      · exact hall e he
    · intro fd hm
      obtain ⟨e, he, -, rfl⟩ := mem_inheritedFds.mp hm
      exact hall e he

theorem fdSnapshot_below {t : FdTable}
    (h : ∀ fd, (t.table.get? fd).isSome = true → fd < t.nextFd) :
    ∀ e ∈ (fdSnapshot c t).entries, e.fd < (fdSnapshot c t).nextFd := by
  intro e he
  obtain ⟨r, hr, -⟩ := mem_fdSnapshot_iff.mp he
  exact h e.fd (by simp [hr])

theorem serve_assembles_table (host : Host) (k target : Kernel) (pages : List MemoryPageSnapshot)
    (listeners : List (UInt32 × Nat)) (k₁ k₂ : Kernel)
    (hbelow : ∀ fd, (k.fds.table.get? fd).isSome = true → fd < k.fds.nextFd)
    (hdistinct : (listeners.map (·.1)).Nodup)
    (h : applySnapshotKernelState host (buildKernelSnapshot k pages) target = .ok k₁)
    (h' : applySnapshotInheritedListeners (buildKernelSnapshot k pages) k₁ listeners = .ok k₂) :
    Assembled host (buildKernelSnapshot k pages) listeners target k₁ k₂ := by
  refine assembled_of_apply ?_ ?_ hdistinct h h'
  · exact fdSnapshot_fds_nodup k.cells k.fds
  · exact fdSnapshot_below hbelow

def inheritingKernel : Kernel :=
  let k := Kernel.new ["app"] [] { root := "/", cwd := "/" } (Vector.replicate 32 7)
  let (ref, sockets) := k.cells.sockets.alloc
    (.fromInheritedListener { localPort := some 8080 } (.v4 8080 #v[192, 168, 0, 1]))
  let (_, fds) := k.fds.insert (.socket ref)
  let (_, fds) := fds.insert (.eventFd { counter := 3, notify := 4, nonblock := true })
  { k with fds, cells := { k.cells with sockets } }

def listeningParent : ParentFds where
  dup _ fd := fd + 10
  fromStd _ := .ok { localPort := some 8080 }
  localAddr _ := .ok (.v4 8080 #v[192, 168, 0, 1])

def twoListeners : List (UInt32 × Nat) × Kernel :=
  otherKernel.attachInheritedListeners listeningParent [(9, 6), (3, 5)]

theorem inheritingKernel_applies :
    (applySnapshotKernelState refusingHost (buildKernelSnapshot inheritingKernel [])
      twoListeners.2).toOption.isSome = true := by
  rfl

theorem serve_assembles_table_inheriting :
    twoListeners.1 = [(9, 0), (3, 1)] ∧
    ∃ k₁ k₂, applySnapshotKernelState refusingHost (buildKernelSnapshot inheritingKernel [])
        twoListeners.2 = .ok k₁ ∧
      applySnapshotInheritedListeners (buildKernelSnapshot inheritingKernel []) k₁ twoListeners.1 =
        .ok k₂ ∧
      Assembled refusingHost (buildKernelSnapshot inheritingKernel []) twoListeners.1 twoListeners.2
        k₁ k₂ := by
  refine ⟨rfl, ?_⟩
  cases h : applySnapshotKernelState refusingHost (buildKernelSnapshot inheritingKernel [])
      twoListeners.2 with
  | error e =>
    have happ := inheritingKernel_applies
    rw [h] at happ
    cases happ
  | ok k₁ =>
    refine ⟨k₁, _, rfl, rfl, serve_assembles_table _ _ _ _ _ _ _ ?_ (by decide) h rfl⟩
    have hkeys : inheritingKernel.fds.table.keys = [4, 3, 2, 1, 0] := rfl
    have hnext : inheritingKernel.fds.nextFd = 5 := rfl
    intro fd hfd
    have hmem := HashMap.containsKey_iff.mp hfd
    rw [hkeys] at hmem
    rw [hnext]
    simp only [List.mem_cons, List.not_mem_nil, or_false] at hmem
    rcases hmem with rfl | rfl | rfl | rfl | rfl <;> decide

-- ---------------------------------------------------------------------------
-- The listeners `serve` supplies
-- ---------------------------------------------------------------------------

structure Wrapped (parent : ParentFds) (fds : List (UInt32 × Int32)) (c c' : Cells)
    (out : List (UInt32 × Nat)) : Prop where
  ext : c.Extends c'
  targets : (out.map (·.1)).Sublist (fds.map (·.1))
  wrapped : ∀ l ∈ out, l.2 < c'.sockets.next ∧
    ∃ sourceFd, (l.1, sourceFd) ∈ fds ∧
      Kernel.wrapListener parent l.1 sourceFd = some (c'.sockets.read l.2)

theorem attachInheritedListeners_wrapped (parent : ParentFds) (fds : List (UInt32 × Int32))
    (k : Kernel) :
    Wrapped parent fds k.cells (k.attachInheritedListeners parent fds).2.cells
      (k.attachInheritedListeners parent fds).1 := by
  induction fds generalizing k with
  | nil => exact ⟨.refl _, .slnil, by simp [Kernel.attachInheritedListeners]⟩
  | cons p rest ih =>
    obtain ⟨targetFd, sourceFd⟩ := p
    cases hw : Kernel.wrapListener parent targetFd sourceFd with
    | none =>
      simp only [Kernel.attachInheritedListeners, hw]
      refine ⟨(ih k).ext, (ih k).targets.cons _, ?_⟩
      intro l hl
      obtain ⟨hlt, source, hsource, hread⟩ := (ih k).wrapped l hl
      exact ⟨hlt, source, List.mem_cons_of_mem _ hsource, hread⟩
    | some inner =>
      simp only [Kernel.attachInheritedListeners, hw]
      have hrest := ih (k.attachShared targetFd inner).2
      obtain ⟨hext, hbetween⟩ := between_socket k.cells inner
      refine ⟨hext.trans hrest.ext, hrest.targets.cons_cons _, ?_⟩
      intro l hl
      rcases List.mem_cons.mp hl with rfl | hl
      · have hlt := (hbetween.socket _ rfl).2
        refine ⟨hlt.trans_le hrest.ext.sockets.next_le, sourceFd, List.mem_cons_self .., ?_⟩
        have hread := hrest.ext.sockets.read_eq k.cells.sockets.next hlt
        simp only [Kernel.attachShared, Heap.alloc_fst, Heap.read_alloc_new] at hread ⊢
        rw [hread, hw]
      · obtain ⟨hlt, source, hsource, hread⟩ := hrest.wrapped l hl
        exact ⟨hlt, source, List.mem_cons_of_mem _ hsource, hread⟩

/-- All of `serve`: the listeners of the parent end up at the inherited descriptors. -/
theorem serveFds_assembled {k target : Kernel} (hbelow : ∀ fd, (k.fds.table.get? fd).isSome = true →
      fd < k.fds.nextFd)
    (hdistinct : (inherited.map (·.1)).Nodup)
    (h : serveFds host parent (buildKernelSnapshot k pages) inherited target = .ok k') :
    ∃ listeners attached k₁,
      Wrapped parent inherited target.cells attached.cells listeners ∧
      Assembled host (buildKernelSnapshot k pages) listeners attached k₁ k' := by
  have hwrap := attachInheritedListeners_wrapped parent inherited target
  cases hs : applySnapshotKernelState host (buildKernelSnapshot k pages)
      (target.attachInheritedListeners parent inherited).2 with
  | error e => simp [serveFds, hs, bind, Except.bind] at h
  | ok k₁ =>
    simp only [serveFds, hs, bind, Except.bind] at h
    refine ⟨_, _, k₁, hwrap, assembled_of_apply ?_ ?_ ?_ hs h⟩
    · exact fdSnapshot_fds_nodup k.cells k.fds
    · exact fdSnapshot_below hbelow
    · exact hwrap.targets.nodup hdistinct

end Snapshot

end EdgeLibos
