import EdgeLibos.Snapshot.Restore

/-!
# A restored kernel has the snapshot it was restored from

For tables of in-kernel resources. Each container comes back as a permutation
of what the snapshot lists, and sorting by key gives the list again.
-/

namespace EdgeLibos.Snapshot

open Lib

theorem sortByKey_of_perm_sorted [LinearOrder κ] {key : α → κ} {l l' : List α} (h : l'.Perm l)
    (hk : (l.map key).Nodup) (hl : sortByKey key l = l) : sortByKey key l' = l := by
  rw [← sortByKey_eq_of_perm h.symm hk, hl]

theorem sortByKey_sortByKey [LinearOrder κ] {key : α → κ} (l : List α) :
    sortByKey key (sortByKey key l) = sortByKey key l :=
  sortByKey_of_pairwise (sortByKey_pairwise l)

-- ---------------------------------------------------------------------------
-- The descriptor table
-- ---------------------------------------------------------------------------

theorem fdSnapshot_fds_nodup (c : Cells) (t : FdTable) :
    ((fdSnapshot c t).entries.map (·.fd)).Nodup := by
  rw [fdSnapshot_entries]
  refine nodup_sortByKey_map ?_
  rw [List.map_map]
  exact t.table.nodup

theorem mem_fdSnapshot (h : e ∈ (fdSnapshot c t).entries) :
    ∃ p ∈ t.table.entries, e = entryOf c p := by
  rw [fdSnapshot_entries, mem_sortByKey, List.mem_map] at h
  obtain ⟨p, hp, rfl⟩ := h
  exact ⟨p, hp, rfl⟩

theorem foldl_setCloexec (l : List UInt32) (t : FdTable) :
    l.foldl (fun t fd => t.setCloexec fd true) t =
      { t with cloexec := (l.map fun fd => (fd, ())).foldl (fun m e => m.insert e.1 e.2) t.cloexec } := by
  induction l generalizing t with
  | nil => rfl
  | cons fd rest ih => exact ih _

theorem cloexec_sorted_again (m : HashSet UInt32) :
    sortByKey (fun fd => fd.toNat)
      (HashMap.ofList ((sortByKey (fun fd => fd.toNat) m.keys).map fun fd => (fd, ()))).keys =
        sortByKey (fun fd => fd.toNat) m.keys := by
  have hnodup : (sortByKey (fun fd : UInt32 => fd.toNat) m.keys).Nodup :=
    (sortByKey_perm _).nodup_iff.mpr m.nodup
  exact sortByKey_of_perm_sorted (HashMap.keys_ofList_perm hnodup)
    (nodup_map_toNat (f := id) (by simpa using hnodup)) (sortByKey_sortByKey _)

theorem sortByKey_fdSnapshot (c : Cells) (t : FdTable) :
    sortByKey (fun e => e.fd.toNat) (fdSnapshot c t).entries = (fdSnapshot c t).entries := by
  rw [fdSnapshot_entries, sortByKey_sortByKey]

theorem restoreFds_made {t₀ : FdTable} (hr : ∀ p ∈ t₀.table.entries, Restorable p.2)
    (h : restoreFds host (fdSnapshot c₀ t₀) c = .ok (t, c')) :
    ∃ news, MadeAll host c (fdSnapshot c₀ t₀).entries news c' ∧ t.table.entries.Perm news ∧
      fdSnapshot c' t = fdSnapshot c₀ t₀ := by
  unfold restoreFds at h
  rw [sortByKey_fdSnapshot] at h
  cases hrun : restoreEntries host (fdSnapshot c₀ t₀).entries (.empty, c) with
  | error err => simp [hrun] at h
  | ok st =>
    obtain ⟨t₁, c₁⟩ := st
    simp only [hrun, Except.ok.injEq, Prod.mk.injEq] at h
    obtain ⟨rfl, rfl⟩ := h
    obtain ⟨news, hall, hperm, hcl⟩ := restoreEntries_made (by
        intro e he
        obtain ⟨p, hp, rfl⟩ := mem_fdSnapshot he
        exact isInherited_resourceSnapshot (hr p hp).socket?_eq) (by
        intro e he c r c' hres
        obtain ⟨p, hp, rfl⟩ := mem_fdSnapshot he
        exact made_of_restoreResource (hr p hp) hres) hrun
    have hperm : t₁.table.entries.Perm news := by simpa [FdTable.empty] using hperm
    rw [foldl_setCloexec, hcl]
    refine ⟨news, hall, hperm, ?_⟩
    have hentries : (fdSnapshot c₁ t₁).entries = (fdSnapshot c₀ t₀).entries := by
      rw [fdSnapshot_entries]
      refine sortByKey_of_perm_sorted ?_ (nodup_map_toNat (fdSnapshot_fds_nodup c₀ t₀))
        (sortByKey_fdSnapshot c₀ t₀)
      have := hperm.map (entryOf c₁)
      rwa [show news.map (entryOf c₁) = (fdSnapshot c₀ t₀).entries from hall.snapshots] at this
    show FdSnapshot.mk (fdSnapshot c₁ t₁).entries t₀.nextFd _ = _
    rw [hentries]
    exact congrArg (FdSnapshot.mk (fdSnapshot c₀ t₀).entries t₀.nextFd)
      (cloexec_sorted_again t₀.cloexec)

theorem restoreFds_total {t₀ : FdTable} (c : Cells)
    (hi : ∀ p ∈ t₀.table.entries, isInherited (resourceSnapshot c₀ p.2) = false)
    (hok : ∀ p ∈ t₀.table.entries, ∀ c, ∃ r c',
      restoreResource host c p.1 (resourceSnapshot c₀ p.2) = .ok (r, c')) :
    ∃ t c', restoreFds host (fdSnapshot c₀ t₀) c = .ok (t, c') := by
  obtain ⟨st, hrun⟩ : ∃ st, restoreEntries host (fdSnapshot c₀ t₀).entries (.empty, c) = .ok st := by
    refine restoreEntries_total ?_ ?_ (fdSnapshot_fds_nodup c₀ t₀) ?_
    · intro e he
      obtain ⟨p, hp, rfl⟩ := mem_fdSnapshot he
      exact hi p hp
    · intro e he c
      obtain ⟨p, hp, rfl⟩ := mem_fdSnapshot he
      exact hok p hp c
    · simp [FdTable.empty, HashMap.keys]
  exact ⟨_, _, by rw [restoreFds, sortByKey_fdSnapshot, hrun]⟩

-- ---------------------------------------------------------------------------
-- Signals and futexes
-- ---------------------------------------------------------------------------

theorem signals_sorted_again (s : SignalState) :
    SignalState.snapshot ⟨.ofList s.snapshot.actions, s.snapshot.mask, s.snapshot.altStack⟩ =
      s.snapshot := by
  have hnodup : (s.snapshot.actions.map Prod.fst).Nodup := nodup_sortByKey_map s.actions.nodup
  have hkeys := hnodup.map (f := Int32.toInt) fun a b => Int32.toInt_inj.mp
  rw [List.map_map] at hkeys
  refine congrArg (SignalStateSnapshot.mk · s.mask s.altStack) ?_
  exact sortByKey_of_perm_sorted (HashMap.ofList_perm hnodup) hkeys (sortByKey_sortByKey _)

theorem rebuildEntries_ok {snap : List FutexAddrSnapshot} (hnodup : (snap.map (·.addr)).Nodup)
    (hnew : ∀ f ∈ snap, f.addr ∉ m.keys) :
    ∃ l, (rebuildEntries snap m c).1.entries.Perm (l ++ m.entries) ∧ l.map addrSnapshot = snap := by
  induction snap generalizing m c with
  | nil => exact ⟨[], .refl _, rfl⟩
  | cons f rest ih =>
    rw [List.map_cons, List.nodup_cons] at hnodup
    have hins := HashMap.insert_perm (v := { notify := c.notifies, waiters := f.waiters.toNat })
      (hnew f (List.mem_cons_self ..))
    obtain ⟨l, hl, hsnap⟩ := ih (c := c.newNotify.2) hnodup.2 (by
      intro f' hf' hmem
      rcases List.mem_cons.mp ((hins.map Prod.fst).mem_iff.mp hmem) with heq | hold
      · exact hnodup.1 (List.mem_map.mpr ⟨f', hf', heq⟩)
      · exact hnew f' (List.mem_cons_of_mem _ hf') hold)
    refine ⟨(f.addr, { notify := c.notifies, waiters := f.waiters.toNat }) :: l, ?_, ?_⟩
    · exact hl.trans ((hins.append_left l).trans List.perm_middle)
    · simp only [List.map_cons, hsnap, addrSnapshot, UInt32.ofNat_toNat]

theorem futex_snapshot_nodup (t : FutexTable) : (t.snapshot.map (·.addr)).Nodup := by
  refine nodup_sortByKey_map ?_
  rw [List.map_map]
  exact t.byAddr.nodup

theorem futex_sorted_again (t : FutexTable) (c : Cells) :
    (rebuildFromSnapshot t.snapshot c).1.snapshot = t.snapshot := by
  have hnodup := futex_snapshot_nodup t
  obtain ⟨l, hl, hsnap⟩ := rebuildEntries_ok (m := .empty) (c := c) hnodup (by simp [HashMap.keys])
  have hperm : ((rebuildFromSnapshot t.snapshot c).1.byAddr.entries.map addrSnapshot).Perm
      t.snapshot := by
    have := hl.map addrSnapshot
    rwa [HashMap.entries_empty, List.append_nil, hsnap] at this
  exact sortByKey_of_perm_sorted hperm (nodup_map_toNat hnodup) (sortByKey_sortByKey _)

-- ---------------------------------------------------------------------------
-- The kernel
-- ---------------------------------------------------------------------------

/-- Standard streams, pipes, event counters and epolls; each registration of an
epoll stands under its own descriptor. -/
def InKernel : Resource → Prop
  | .file _ => False
  | .socket _ => False
  | .epoll e => KeyedByFd e
  | _ => True

theorem InKernel.restorable (h : InKernel r) : Restorable r := by
  cases r with
  | file ref => exact h.elim
  | _ => exact h

theorem InKernel.restores (h : InKernel r) :
    ∃ r' c', restoreResource host c fd (resourceSnapshot c₀ r) = .ok (r', c') := by
  cases r with
  | file ref => exact h.elim
  | socket ref => exact h.elim
  | _ => exact ⟨_, _, rfl⟩

/-- A table of in-kernel resources is restored on any host. -/
theorem applySnapshotKernelState_inKernel (host : Host) (k target : Kernel)
    (pages : List MemoryPageSnapshot) (hk : ∀ p ∈ k.fds.table.entries, InKernel p.2) :
    ∃ fds cells, fdSnapshot cells fds = fdSnapshot k.cells k.fds ∧
      applySnapshotKernelState host (buildKernelSnapshot k pages) target =
        .ok (restoredKernel (buildKernelSnapshot k pages) target
          (rebuildFromSnapshot k.futexTable.snapshot target.cells).1 fds cells) := by
  obtain ⟨fds, cells, hfds⟩ := restoreFds_total
    (rebuildFromSnapshot k.futexTable.snapshot target.cells).2
    (fun p hp => isInherited_resourceSnapshot (hk p hp).restorable.socket?_eq) (fun p hp c => (hk p hp).restores)
  obtain ⟨-, -, -, hsnap⟩ := restoreFds_made (fun p hp => (hk p hp).restorable) hfds
  exact ⟨fds, cells, hsnap, applySnapshotKernelState_eq_ok.mpr ⟨rfl, fds, cells, hfds, rfl⟩⟩

theorem apply_build_fixpoint (host : Host) (k target : Kernel) (pages : List MemoryPageSnapshot)
    (hk : ∀ p ∈ k.fds.table.entries, InKernel p.2) :
    ∃ k', applySnapshotKernelState host (buildKernelSnapshot k pages) target = .ok k' ∧
      buildKernelSnapshot k' pages = buildKernelSnapshot k pages := by
  obtain ⟨fds, cells, hsnap, happly⟩ := applySnapshotKernelState_inKernel host k target pages hk
  refine ⟨_, happly, ?_⟩
  simp only [buildKernelSnapshot, restoredKernel, hsnap, futex_sorted_again]
  rw [signals_sorted_again]
  rfl

instance : DecidablePred InKernel
  | .file _ | .socket _ => .isFalse id
  | .epoll e => inferInstanceAs (Decidable (∀ p ∈ e.entries.entries, p.2.fd = p.1))
  | .stdin _ | .stdout _ | .stderr _ | .pipeRead _ | .pipeWrite _ | .eventFd _ => .isTrue trivial

def watchingKernel : Kernel :=
  let k := Kernel.new ["app"] [("K", "V")] { root := "/", cwd := "/" } (Vector.replicate 32 7)
  let (eventFd, fds) := k.fds.insert (.eventFd { counter := 3, notify := 4, nonblock := true })
  let entries := HashMap.ofList [(eventFd, { fd := eventFd, events := 1, data := 9, wake := 5 }),
    (0, { fd := 0, events := 4, data := 8, wake := 6 })]
  let (epoll, fds) := fds.insert (.epoll { entries, cancel := 7, selfEventFd := none })
  { k with
    fds := fds.setCloexec epoll true
    futexTable := { byAddr := HashMap.empty.insert 4096 { notify := 8, waiters := 2 } } }

def refusingHost : Host where
  openReadWrite _ _ := .error (.os Errno.EACCES)
  isSocket _ _ := none
  bindUnix _ _ := .error (.os Errno.EACCES)
  bindTcp _ _ _ := .error (.os Errno.EADDRINUSE)
  setsockoptReuseaddr _ := .error (.os Errno.EINVAL)
  fromStd _ := .error (.os Errno.EINVAL)

def otherKernel : Kernel := Kernel.new [] [] { root := "/srv", cwd := "/srv" } (Vector.replicate 32 0)

theorem apply_build_fixpoint_watching :
    ∃ k', applySnapshotKernelState refusingHost (buildKernelSnapshot watchingKernel [])
        otherKernel = .ok k' ∧
      buildKernelSnapshot k' [] = buildKernelSnapshot watchingKernel [] :=
  apply_build_fixpoint refusingHost watchingKernel otherKernel [] (by decide)

end EdgeLibos.Snapshot
