import EdgeLibos.Snapshot.Apply

/-!
# What a restored descriptor holds

Restoring an entry allocates new cells and leaves the old ones alone. The
resource it makes refers only to cells allocated for it, and a snapshot of
that resource is the snapshot it was made from.
-/

namespace EdgeLibos

open Lib

-- ---------------------------------------------------------------------------
-- Cells
-- ---------------------------------------------------------------------------

structure Cells.Extends (c c' : Cells) : Prop where
  pipes : c.pipes.Extends c'.pipes
  files : c.files.Extends c'.files
  sockets : c.sockets.Extends c'.sockets

namespace Cells

theorem Extends.refl (c : Cells) : c.Extends c := ⟨.refl _, .refl _, .refl _⟩

theorem Extends.trans {c₁ c₂ c₃ : Cells} (h : c₁.Extends c₂) (h' : c₂.Extends c₃) :
    c₁.Extends c₃ where
  pipes := h.pipes.trans h'.pipes
  files := h.files.trans h'.files
  sockets := h.sockets.trans h'.sockets

theorem extends_newNotify (c : Cells) : c.Extends c.newNotify.2 := ⟨.refl _, .refl _, .refl _⟩

theorem extends_newPipe (c : Cells) (p : Pipe) : c.Extends (c.newPipe p).2 :=
  ⟨Heap.extends_alloc _ _, .refl _, .refl _⟩

end Cells

/-- Every cell the resource refers to was allocated on the way from `c` to `c'`. -/
structure Resource.Between (c c' : Cells) (r : Resource) : Prop where
  pipe : ∀ n ∈ r.pipe?, c.pipes.next ≤ n ∧ n < c'.pipes.next
  file : ∀ n ∈ r.file?, c.files.next ≤ n ∧ n < c'.files.next
  socket : ∀ n ∈ r.socket?, c.sockets.next ≤ n ∧ n < c'.sockets.next

namespace Resource.Between

theorem later (h : Resource.Between c c' r) (hc : c'.Extends c'') : Resource.Between c c'' r where
  pipe n hn := ⟨(h.pipe n hn).1, (h.pipe n hn).2.trans_le hc.pipes.next_le⟩
  file n hn := ⟨(h.file n hn).1, (h.file n hn).2.trans_le hc.files.next_le⟩
  socket n hn := ⟨(h.socket n hn).1, (h.socket n hn).2.trans_le hc.sockets.next_le⟩

theorem earlier (h : Resource.Between c' c'' r) (hc : c.Extends c') : Resource.Between c c'' r where
  pipe n hn := ⟨hc.pipes.next_le.trans (h.pipe n hn).1, (h.pipe n hn).2⟩
  file n hn := ⟨hc.files.next_le.trans (h.file n hn).1, (h.file n hn).2⟩
  socket n hn := ⟨hc.sockets.next_le.trans (h.socket n hn).1, (h.socket n hn).2⟩

theorem of_pipe (hr : r.pipe? = some n) (hlo : c.pipes.next ≤ n) (hhi : n < c'.pipes.next) :
    Resource.Between c c' r := by
  cases r <;> cases hr
  all_goals
    refine ⟨?_, ?_, ?_⟩
    · rintro _ ⟨⟩
      exact ⟨hlo, hhi⟩
    · rintro _ ⟨⟩
    · rintro _ ⟨⟩

theorem of_none (hp : r.pipe? = none) (hf : r.file? = none) (hs : r.socket? = none) :
    Resource.Between c c' r where
  pipe n hn := by simp [hp] at hn
  file n hn := by simp [hf] at hn
  socket n hn := by simp [hs] at hn

end Resource.Between

/-- Two resources that refer to no pipe or file in common. -/
structure Resource.Disjoint (r r' : Resource) : Prop where
  pipe : ∀ n ∈ r.pipe?, n ∉ r'.pipe?
  file : ∀ n ∈ r.file?, n ∉ r'.file?

theorem Resource.Disjoint.symm (h : Resource.Disjoint r r') : Resource.Disjoint r' r where
  pipe n hn hn' := h.pipe n hn' hn
  file n hn hn' := h.file n hn' hn

namespace Snapshot

theorem resourceSnapshot_extends (hr : r.Between c₀ c) (hc : c.Extends c') :
    resourceSnapshot c' r = resourceSnapshot c r := by
  cases r with
  | stdin p | pipeRead p =>
    simp only [resourceSnapshot, PipeRead.snapshot, hc.pipes.read_eq _ (hr.pipe _ rfl).2]
  | stdout p | stderr p | pipeWrite p =>
    simp only [resourceSnapshot, PipeWrite.snapshot, hc.pipes.read_eq _ (hr.pipe _ rfl).2]
  | file ref => simp only [resourceSnapshot, hc.files.read_eq _ (hr.file _ rfl).2]
  | socket ref => simp only [resourceSnapshot, hc.sockets.read_eq _ (hr.socket _ rfl).2]
  | epoll e => rfl
  | eventFd e => rfl

-- ---------------------------------------------------------------------------
-- Epoll registrations
-- ---------------------------------------------------------------------------

theorem restoreEpollEntries_ok (c : Cells) (l : List EpollEntrySnapshot) :
    c.Extends (restoreEpollEntries c l).2 ∧
      (restoreEpollEntries c l).1.map (fun p => p.1) = l.map (·.fd) ∧
      (restoreEpollEntries c l).1.map (fun p => entrySnapshot p.2) = l := by
  induction l generalizing c with
  | nil => exact ⟨.refl _, rfl, rfl⟩
  | cons e rest ih =>
    obtain ⟨hext, hfd, hsnap⟩ := ih c.newNotify.2
    refine ⟨c.extends_newNotify.trans hext, ?_, ?_⟩
    · simp only [restoreEpollEntries, List.map_cons, hfd]
    · simp only [restoreEpollEntries, List.map_cons, hsnap]
      rfl

/-- Each registration stands under the descriptor it is for. -/
def KeyedByFd (e : EpollInner) : Prop := ∀ p ∈ e.entries.entries, p.2.fd = p.1

theorem KeyedByFd.fds_eq (h : KeyedByFd e) : e.snapshot.entries.map (·.fd) =
    (sortByKey (fun p => p.1.toNat) e.entries.entries).map (·.1) := by
  rw [epoll_entries_eq, List.map_map]
  exact List.map_congr_left fun p hp => h p (mem_sortByKey.mp hp)

theorem restored_epoll_snapshot (h : KeyedByFd e)
    (hfd : l.map (fun p => p.1) = e.snapshot.entries.map (·.fd))
    (hsnap : l.map (fun p => entrySnapshot p.2) = e.snapshot.entries) :
    EpollInner.snapshot { entries := .ofList l, cancel := n, selfEventFd := e.selfEventFd } =
      e.snapshot := by
  have hnodup : (l.map (·.1)).Nodup := by
    rw [hfd, h.fds_eq]
    exact nodup_sortByKey_map e.entries.nodup
  have hsorted : sortByKey (fun p : UInt32 × EpollEntry => p.1.toNat) l = l := by
    refine sortByKey_of_pairwise ?_
    have hp := sortByKey_pairwise (f := fun p : UInt32 × EpollEntry => p.1.toNat) e.entries.entries
    rw [← List.pairwise_map (f := fun p : UInt32 × EpollEntry => p.1)
      (R := fun a b => a.toNat ≤ b.toNat)] at hp ⊢
    rwa [hfd, h.fds_eq]
  have hentries : (EpollInner.snapshot
      { entries := .ofList l, cancel := n, selfEventFd := e.selfEventFd }).entries =
        e.snapshot.entries := by
    rw [epoll_entries_eq]
    simp only
    rw [← sortByKey_eq_of_perm (HashMap.ofList_perm hnodup).symm (nodup_map_toNat hnodup), hsorted,
      hsnap]
  exact congrArg (EpollSnapshot.mk · e.selfEventFd) hentries

-- ---------------------------------------------------------------------------
-- One entry
-- ---------------------------------------------------------------------------

theorem restoreFile_ok (h : restoreFile host c fd body = .ok (r, c')) :
    ∃ fsnap path f, body.file = some fsnap ∧ fsnap.isDir = false ∧ fsnap.path = some path ∧
      host.openReadWrite fd path = .ok f ∧ fsnap.pos.toNat < f.limit.first ∧ r = .file c.files.next ∧
      c' = { c with files := (c.files.alloc
        ⟨{ f with cursor := fsnap.pos.toNat }, fsnap.pos, some path, false, fsnap.dirCache⟩).2 } := by
  unfold restoreFile at h
  cases hb : body.file with
  | none => simp [hb] at h
  | some fsnap =>
    simp only [hb] at h
    cases hd : fsnap.isDir with
    | true => simp [hd] at h
    | false =>
      simp only [hd, Bool.false_eq_true, if_false] at h
      cases hp : fsnap.path with
      | none => simp [hp] at h
      | some path =>
        simp only [hp] at h
        cases ho : host.openReadWrite fd path with
        | error e => simp [ho, withCtx, bind, Except.bind] at h
        | ok f =>
          simp only [ho, withCtx, seekStart, bind, Except.bind] at h
          by_cases hpos : fsnap.pos.toNat < f.limit.first
          · simp only [hpos, if_true] at h
            cases h
            exact ⟨fsnap, path, f, rfl, hd, hp, ho, hpos, rfl, rfl⟩
          · simp only [hpos, if_false] at h
            cases h

/-- A resource whose snapshot holds all that a restore needs. -/
def Restorable : Resource → Prop
  | .socket _ => False
  | .epoll e => KeyedByFd e
  | _ => True

instance : DecidablePred Restorable
  | .socket _ => .isFalse id
  | .epoll e => inferInstanceAs (Decidable (∀ p ∈ e.entries.entries, p.2.fd = p.1))
  | .stdin _ | .stdout _ | .stderr _ | .pipeRead _ | .pipeWrite _ | .eventFd _ | .file _ =>
    .isTrue trivial

theorem Restorable.socket?_eq (h : Restorable r) : r.socket? = none := by
  cases r with
  | socket ref => exact h.elim
  | _ => rfl

/-- The open file of a `FilePos` is the one the host gave for the path, at the offset. -/
structure Reopened (host : Host) (fd : UInt32) (fp : FilePos) : Prop where
  isDir : fp.isDir = false
  pos_lt : fp.pos.toNat < fp.inner.limit.first
  inner : ∃ path f, fp.path = some path ∧ host.openReadWrite fd path = .ok f ∧
    fp.inner = { f with cursor := fp.pos.toNat }

/-- What restoring an entry did: a resource over new cells, with the snapshot it came from. -/
structure Made (host : Host) (c : Cells) (e : FdEntrySnapshot) (r : Resource) (c' : Cells) :
    Prop where
  ext : c.Extends c'
  between : r.Between c c'
  snapshot : resourceSnapshot c' r = e.kind
  file : ∀ n ∈ r.file?, Reopened host e.fd (c'.files.read n)

theorem made_pipe (make : Nat → Nat → Resource) (hp : ∀ p n, (make p n).pipe? = some p)
    (hs : ∀ c p n, resourceSnapshot c (make p n) = .fromPipe kind
      ⟨(c.pipes.read p).buf, (c.pipes.read p).closed, (c.pipes.read p).nonblock⟩)
    (hf : ∀ p n, (make p n).file? = none)
    (h : (restorePipe c (ResourceSnapshot.fromPipe kind snap).body).map
      (fun x => (make x.1.1 x.1.2, x.2)) = .ok (r, c')) :
    Made host c ⟨fd, .fromPipe kind snap⟩ r c' := by
  cases h
  have hext := (c.extends_newPipe ⟨snap.buf, snap.closed, snap.nonblock⟩).trans
    (Cells.extends_newNotify _)
  refine ⟨hext, .of_pipe (hp _ _) (le_refl _) (Nat.lt_succ_self _), ?_, by simp [hf]⟩
  rw [hs]
  simp only [Function.update_self]

theorem made_of_restoreResource (hr : Restorable r₀)
    (h : restoreResource host c fd (resourceSnapshot c₀ r₀) = .ok (r, c')) :
    Made host c ⟨fd, resourceSnapshot c₀ r₀⟩ r c' := by
  cases r₀ with
  | stdin p =>
    exact made_pipe (fun pipe notify => .stdin { pipe, notify }) (fun _ _ => rfl)
      (fun _ _ _ => rfl) (fun _ _ => rfl) h
  | stdout p =>
    exact made_pipe (fun pipe notify => .stdout { pipe, notify }) (fun _ _ => rfl)
      (fun _ _ _ => rfl) (fun _ _ => rfl) h
  | stderr p =>
    exact made_pipe (fun pipe notify => .stderr { pipe, notify }) (fun _ _ => rfl)
      (fun _ _ _ => rfl) (fun _ _ => rfl) h
  | pipeRead p =>
    exact made_pipe (fun pipe notify => .pipeRead { pipe, notify }) (fun _ _ => rfl)
      (fun _ _ _ => rfl) (fun _ _ => rfl) h
  | pipeWrite p =>
    exact made_pipe (fun pipe notify => .pipeWrite { pipe, notify }) (fun _ _ => rfl)
      (fun _ _ _ => rfl) (fun _ _ => rfl) h
  | file ref =>
    have h : restoreFile host c fd (ResourceSnapshot.fromFile (c₀.files.read ref).snapshot).body =
      .ok (r, c') := h
    obtain ⟨fsnap, path, f, hbody, hdir, hpath, hopen, hpos, rfl, rfl⟩ := restoreFile_ok h
    cases hbody
    refine ⟨⟨.refl _, Heap.extends_alloc _ _, .refl _⟩, ⟨?_, ?_, ?_⟩, ?_, ?_⟩
    · rintro _ ⟨⟩
    · rintro n ⟨⟩
      exact ⟨le_refl _, Nat.lt_succ_self _⟩
    · rintro _ ⟨⟩
    · simp only [resourceSnapshot, Heap.read_alloc_new]
      rw [← hpath, ← hdir]
      rfl
    · rintro n ⟨⟩
      simp only [Heap.read_alloc_new]
      exact ⟨rfl, hpos, path, f, rfl, hopen, rfl⟩
  | socket ref => exact hr.elim
  | epoll e =>
    cases h
    obtain ⟨hext, hfd, hsnap⟩ := restoreEpollEntries_ok c e.snapshot.entries
    refine ⟨hext.trans (Cells.extends_newNotify _), .of_none rfl rfl rfl, ?_, by rintro _ ⟨⟩⟩
    exact congrArg ResourceSnapshot.fromEpoll (restored_epoll_snapshot hr hfd hsnap)
  | eventFd e =>
    cases h
    exact ⟨c.extends_newNotify, .of_none rfl rfl rfl, rfl, by rintro _ ⟨⟩⟩

theorem isInherited_resourceSnapshot (hs : r.socket? = none) :
    isInherited (resourceSnapshot c r) = false := by
  cases r with
  | socket ref => cases hs
  | _ => rfl


-- ---------------------------------------------------------------------------
-- The whole table
-- ---------------------------------------------------------------------------

/-- The table entries a run of the loop made, one for each snapshot entry. -/
inductive MadeAll (host : Host) : Cells → List FdEntrySnapshot → List (UInt32 × Resource) → Cells →
    Prop
  | nil : MadeAll host c [] [] c
  | cons : Made host c e r c₁ → MadeAll host c₁ es news c' →
      MadeAll host c (e :: es) ((e.fd, r) :: news) c'

namespace MadeAll

theorem ext (h : MadeAll host c es news c') : c.Extends c' := by
  induction h with
  | nil => exact .refl _
  | cons hm _ ih => exact hm.ext.trans ih

theorem snapshots (h : MadeAll host c es news c') :
    news.map (fun p => ({ fd := p.1, kind := resourceSnapshot c' p.2 } : FdEntrySnapshot)) = es := by
  induction h with
  | nil => rfl
  | cons hm hrest ih =>
    simp only [List.map_cons, ih, resourceSnapshot_extends hm.between hrest.ext, hm.snapshot]

theorem between (h : MadeAll host c es news c') : ∀ p ∈ news, p.2.Between c c' := by
  induction h with
  | nil => simp
  | cons hm hrest ih =>
    intro p hp
    rcases List.mem_cons.mp hp with rfl | hp
    · exact hm.between.later hrest.ext
    · exact (ih p hp).earlier hm.ext

/-- The cells of one were allocated before those of the next. -/
theorem pairwise (h : MadeAll host c es news c') : news.Pairwise fun p q => p.2.Disjoint q.2 := by
  induction h with
  | nil => exact .nil
  | cons hm hrest ih =>
    refine List.pairwise_cons.mpr ⟨fun q hq => ⟨?_, ?_⟩, ih⟩
    · intro n hn hn'
      exact Nat.lt_irrefl n ((hm.between.pipe n hn).2.trans_le ((hrest.between q hq).pipe n hn').1)
    · intro n hn hn'
      exact Nat.lt_irrefl n ((hm.between.file n hn).2.trans_le ((hrest.between q hq).file n hn').1)

theorem files (h : MadeAll host c es news c') :
    ∀ p ∈ news, ∀ n ∈ p.2.file?, Reopened host p.1 (c'.files.read n) := by
  induction h with
  | nil => simp
  | cons hm hrest ih =>
    intro p hp n hn
    rcases List.mem_cons.mp hp with rfl | hp
    · rw [hrest.ext.files.read_eq n (hm.between.file n hn).2]
      exact hm.file n hn
    · exact ih p hp n hn

end MadeAll

theorem insertAt_new {t : FdTable} (h : fd ∉ t.table.keys) : ∃ t', t.insertAt fd r = .ok (fd, t') ∧
    t'.table.entries.Perm ((fd, r) :: t.table.entries) ∧ t'.cloexec = t.cloexec := by
  have hc : t.table.containsKey fd = false := by
    rw [← Bool.not_eq_true, HashMap.containsKey_iff]
    exact h
  refine ⟨{ t with nextFd := if fd ≥ t.nextFd then fd + 1 else t.nextFd, table := t.table.insert fd r },
    ?_, HashMap.insert_perm h, rfl⟩
  simp only [FdTable.insertAt, hc, Bool.false_eq_true, if_false]

theorem insertAt_old {t : FdTable} (h : fd ∈ t.table.keys) : t.insertAt fd r = .error (-Errno.EBADF) := by
  simp only [FdTable.insertAt, HashMap.containsKey_iff.mpr h, if_true]

theorem restoreEntry_ok (hi : isInherited e.kind = false) (hnew : e.fd ∉ t.table.keys)
    (h : restoreResource host c e.fd e.kind = .ok (r, c')) :
    ∃ t', restoreEntry host (t, c) e = .ok (t', c') ∧
      t'.table.entries.Perm ((e.fd, r) :: t.table.entries) ∧ t'.cloexec = t.cloexec := by
  obtain ⟨t', ht', hperm, hcl⟩ := insertAt_new (r := r) hnew
  exact ⟨t', by simp [restoreEntry, hi, h, ht'], hperm, hcl⟩

theorem restoreEntry_inv (hi : isInherited e.kind = false)
    (h : restoreEntry host (t, c) e = .ok (t', c')) :
    ∃ r, restoreResource host c e.fd e.kind = .ok (r, c') ∧
      t'.table.entries.Perm ((e.fd, r) :: t.table.entries) ∧ t'.cloexec = t.cloexec := by
  cases hres : restoreResource host c e.fd e.kind with
  | error err => simp [restoreEntry, hi, hres] at h
  | ok rc =>
    obtain ⟨r, c₁⟩ := rc
    by_cases hnew : e.fd ∈ t.table.keys
    · simp [restoreEntry, hi, hres, insertAt_old hnew] at h
    · obtain ⟨t₁, h₁, hperm, hcl⟩ := restoreEntry_ok hi hnew hres
      rw [h₁] at h
      cases h
      exact ⟨r, rfl, hperm, hcl⟩

theorem restoreEntries_made (hi : ∀ e ∈ es, isInherited e.kind = false)
    (hmade : ∀ e ∈ es, ∀ c r c', restoreResource host c e.fd e.kind = .ok (r, c') → Made host c e r c')
    (h : restoreEntries host es (t, c) = .ok (t', c')) :
    ∃ news, MadeAll host c es news c' ∧ t'.table.entries.Perm (news ++ t.table.entries) ∧
      t'.cloexec = t.cloexec := by
  induction es generalizing t c with
  | nil =>
    cases h
    exact ⟨[], .nil, .refl _, rfl⟩
  | cons e es ih =>
    cases hentry : restoreEntry host (t, c) e with
    | error err => simp [restoreEntries, hentry] at h
    | ok st =>
      obtain ⟨t₁, c₁⟩ := st
      simp only [restoreEntries, hentry] at h
      obtain ⟨r, hres, hperm, hcl⟩ := restoreEntry_inv (hi e (List.mem_cons_self ..)) hentry
      obtain ⟨news, hall, hperm', hcl'⟩ := ih (fun e' he' => hi e' (List.mem_cons_of_mem _ he'))
        (fun e' he' => hmade e' (List.mem_cons_of_mem _ he')) h
      refine ⟨(e.fd, r) :: news, .cons (hmade e (List.mem_cons_self ..) _ _ _ hres) hall, ?_,
        hcl'.trans hcl⟩
      exact hperm'.trans ((hperm.append_left news).trans List.perm_middle)

theorem restoreEntries_total (hi : ∀ e ∈ es, isInherited e.kind = false)
    (hok : ∀ e ∈ es, ∀ c, ∃ r c', restoreResource host c e.fd e.kind = .ok (r, c'))
    (hnodup : (es.map (·.fd)).Nodup) (hnew : ∀ e ∈ es, e.fd ∉ t.table.keys) :
    ∃ st, restoreEntries host es (t, c) = .ok st := by
  induction es generalizing t c with
  | nil => exact ⟨(t, c), rfl⟩
  | cons e es ih =>
    rw [List.map_cons, List.nodup_cons] at hnodup
    obtain ⟨r, c₁, hres⟩ := hok e (List.mem_cons_self ..) c
    obtain ⟨t₁, hentry, hperm, -⟩ := restoreEntry_ok (hi e (List.mem_cons_self ..))
      (hnew e (List.mem_cons_self ..)) hres
    obtain ⟨st, hrest⟩ := ih (t := t₁) (c := c₁)
      (fun e' he' => hi e' (List.mem_cons_of_mem _ he'))
      (fun e' he' => hok e' (List.mem_cons_of_mem _ he')) hnodup.2 (by
        intro e' he' hmem
        rcases List.mem_cons.mp ((hperm.map Prod.fst).mem_iff.mp hmem) with heq | hold
        · exact hnodup.1 (List.mem_map.mpr ⟨e', he', heq⟩)
        · exact hnew e' (List.mem_cons_of_mem _ he') hold)
    exact ⟨st, by simp only [restoreEntries, hentry, hrest]⟩

end Snapshot

end EdgeLibos
