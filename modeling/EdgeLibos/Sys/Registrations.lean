import EdgeLibos.Sys.Pollers

/-!
# Epoll registrations

What the calls do to the descriptors that an epoll instance watches. A registration is
kept under a descriptor number inside the instance, and closing or replacing the
descriptor does not look there: the number stays registered, whatever it is bound to.
-/

namespace EdgeLibos

open Errno Lib

/-- What stays the same of a resource while it is used: an event counter and an epoll
instance are known by their `Notify`. -/
def Resource.object : Resource → Resource
  | .eventFd e => .eventFd { counter := 0, notify := e.notify, nonblock := false }
  | .epoll e => .epoll { entries := .empty, cancel := e.cancel, selfEventFd := none }
  | r => r

namespace Sys

def Pollers.binding (s : Pollers) (fd : UInt32) : Option Resource := s.world.kernel.fds.table.get? fd

/-- A call that fails replaces nothing, and neither does a `dup2` onto the same descriptor. -/
def FdCall.replaced (t : FdTable) (c : FdCall) : List UInt32 :=
  if (c.run t).any (fun r => r.1 < 0) || c.target = c.source.bind u32Fd then [] else c.target.toList

/-- The descriptors that a call closes or replaces, or takes as the next number if it makes
a new one. -/
def PollAct.rebinds (s : Pollers) : PollAct → List UInt32
  | .table c => c.replaced s.world.kernel.fds
  | .openat .. | .socket .. | .eventfd2 .. | .epollCreate1 => [s.world.kernel.fds.nextFd]
  | .pipe2 .. => [s.world.kernel.fds.nextFd, s.world.kernel.fds.nextFd + 1]
  | _ => []

-- ---------------------------------------------------------------------------
-- What `epoll_ctl` does
-- ---------------------------------------------------------------------------

/-- The operation, cut to 32 bits. -/
def ctlOp (op : Int) : Int := (BitVec.ofInt 32 op).toInt

/-- `epoll_ctl` fails and leaves the table alone, enters a registration or removes one. -/
inductive CtlCase (k : Kernel) (epfd op fd : Int) (value : Int) (fds : FdTable) : Prop
  | refused (hvalue : value < 0) (hfds : fds = k.fds)
  | registered (ep f : UInt32) (e : EpollInner) (entry : EpollEntry) (hep : u32Fd epfd = some ep)
      (hf : u32Fd fd = some f) (he : k.fds.table.get? ep = some (.epoll e)) (hentry : entry.fd = f)
      (hop : ctlOp op = EPOLL_CTL_ADD ∧ e.entries.get? f = none ∨
        ctlOp op = EPOLL_CTL_MOD ∧ (e.entries.get? f).isSome)
      (hvalue : value = 0)
      (hfds : fds = { k.fds with
        table := k.fds.table.insert ep (.epoll { e with entries := e.entries.insert f entry }) })
  | removed (ep f : UInt32) (e : EpollInner) (hep : u32Fd epfd = some ep) (hf : u32Fd fd = some f)
      (he : k.fds.table.get? ep = some (.epoll e)) (hop : ctlOp op = EPOLL_CTL_DEL)
      (hvalue : value = 0)
      (hfds : fds = { k.fds with
        table := k.fds.table.insert ep (.epoll { e with entries := e.entries.erase f }) })

theorem epollCtl_case (k : Kernel) (sides : Nat → SocketSide) (epfd op fd eventPtr : Int) :
    CtlCase k epfd op fd (epollCtl k sides epfd op fd eventPtr).1
      (epollCtl k sides epfd op fd eventPtr).2.1.fds := by
  have hebadf : -EBADF < 0 := by decide
  have heexist : -EEXIST < 0 := by decide
  have henoent : -ENOENT < 0 := by decide
  have heinval : -EINVAL < 0 := by decide
  unfold epollCtl
  split
  · rename_i ep f hep hf
    split
    · rename_i hget
      exact .refused (get_error_neg hget) rfl
    · rename_i e hget
      have he := FdTable.get_ok.mp hget
      dsimp only
      split
      · rename_i hop
        split
        · rename_i hs
          exact .refused (guestSlice_error_neg hs) rfl
        · split
          · exact .refused heexist rfl
          · rename_i hadd
            split
            · exact .refused henoent rfl
            · rename_i hmod
              refine .registered ep f e _ hep hf he rfl ?_ rfl rfl
              rcases hop with hop | hop
              · refine .inl ⟨hop, ?_⟩
                have hnot : ¬ e.entries.containsKey f = true := fun hc => hadd ⟨hop, hc⟩
                exact Option.not_isSome_iff_eq_none.mp hnot
              · refine .inr ⟨hop, ?_⟩
                by_contra hnot
                exact hmod ⟨hop, by rw [HashMap.containsKey, Bool.eq_false_of_not_eq_true hnot, Bool.not_false]⟩
      · split
        · rename_i hop
          split
          · exact .refused henoent rfl
          · exact .removed ep f e hep hf he hop rfl rfl
        · exact .refused heinval rfl
    · exact .refused hebadf rfl
  · exact .refused hebadf rfl

-- ---------------------------------------------------------------------------
-- What any call does
-- ---------------------------------------------------------------------------

/-- A call leaves alone what is bound and not rebound by it, and brings no instance with
registrations; or it changes the value of an event counter, or it is `epoll_ctl`. -/
inductive TableStep (s : Pollers) (a : PollAct) (s' : Pollers) : Prop
  | rebind (hkeep : ∀ fd r, fd ∉ a.rebinds s → s.binding fd = some r → s'.binding fd = some r)
      (hepoll : ∀ fd e, s'.binding fd = some (.epoll e) →
        s.binding fd = some (.epoll e) ∨ e.entries = .empty)
  | counter (fd : UInt32) (e e' : EventFdInner) (he : s.binding fd = some (.eventFd e))
      (hnotify : e'.notify = e.notify)
      (htable : ∀ x, s'.binding x = if x = fd then some (.eventFd e') else s.binding x)
  | ctl (epfd op fd eventPtr : Int) (ha : a = .epollCtl epfd op fd eventPtr) (value : Int)
      (hcase : CtlCase s.world.kernel epfd op fd value s'.world.kernel.fds)

variable {s s' : Pollers} {a : PollAct}

theorem TableStep.same (h : s'.world.kernel.fds.table = s.world.kernel.fds.table) : TableStep s a s' := by
  have hbinding : ∀ fd, s'.binding fd = s.binding fd := fun fd => by rw [Pollers.binding, h]; rfl
  exact .rebind (fun fd r _ hr => (hbinding fd).trans hr) fun fd e he => .inl ((hbinding fd).symm.trans he)

theorem TableStep.bind (hfd : fd ∈ a.rebinds s ∨ s.binding fd = none)
    (hr : ∀ e, r = .epoll e → e.entries = .empty)
    (htable : ∀ x, s'.binding x = if x = fd then some r else s.binding x) : TableStep s a s' := by
  refine .rebind (fun x y hx hy => ?_) fun x e he => ?_
  · rw [htable]
    split
    · rename_i hxf
      subst hxf
      rcases hfd with hfd | hfd
      · exact absurd hfd hx
      · cases hfd.symm.trans hy
    · exact hy
  · rw [htable] at he
    split at he
    · exact .inr (hr e (Option.some.inj he))
    · exact .inl he

theorem bind_binding (s : Pollers) (c : Cells) (r : Resource) (cloexec : Bool) (x : UInt32) :
    (s.bind c r cloexec).binding x = if x = s.world.kernel.fds.nextFd then some r else s.binding x := by
  have hins : (s.world.kernel.fds.insert r).2.table.get? x =
      if x = s.world.kernel.fds.nextFd then some r else s.binding x := HashMap.get?_insert ..
  simp only [Pollers.bind, Pollers.withKernel, Pollers.binding]
  split
  · exact hins
  · exact hins

/-- What can be duplicated has no registrations. -/
theorem cloned_entries {t : FdTable} (hr : t.cloned fd = .ok r) : ∀ e, r = .epoll e → e.entries = .empty := by
  rintro e rfl
  rcases t.cloned_cases fd with ⟨r, hok, -, hshared⟩ | herror
  · cases hr.symm.trans hok
    exact absurd hshared id
  · cases hr.symm.trans herror

theorem FdCall.mem_replaced {t : FdTable} {c : FdCall} (hrun : c.run t = some (value, t')) (hvalue : 0 ≤ value)
    (hnew : c.target = some new) (hne : c.source.bind u32Fd ≠ some new) : new ∈ c.replaced t := by
  have hfine : ¬ ((c.run t).any (fun r => r.1 < 0) || decide (c.target = c.source.bind u32Fd)) = true := by
    rw [hrun, hnew, Bool.or_eq_true, decide_eq_true_eq, Option.any_some, decide_eq_true_eq]
    exact fun h => h.elim (not_lt.mpr hvalue) fun h => hne h.symm
  rw [replaced, if_neg hfine]
  exact Option.mem_toList.mpr hnew

theorem FdCall.target_of_replaced {c : FdCall} (h : fd ∈ c.replaced t) : c.target = some fd := by
  unfold replaced at h
  split at h
  · cases h
  · exact Option.mem_toList.mp h

theorem dup_tableStep {c : FdCall} (hc : c.source = some oldfd)
    (hrun : c.run s.world.kernel.fds = some (value, t)) :
    TableStep s (.table c) { s with world.kernel.fds := t } := by
  cases dup_cases s.world.kernel.fds hc with
  | refused e _ hsame =>
    cases hrun.symm.trans hsame
    exact .same rfl
  | itself _ hsame =>
    cases hrun.symm.trans hsame
    exact .same rfl
  | named old new r hold hr hnew hne hbind =>
    cases hrun.symm.trans hbind
    have hother : c.source.bind u32Fd ≠ some new := by
      rw [hc, Option.bind_some, hold]
      exact fun h => hne (Option.some.inj h)
    have hmem : new ∈ (PollAct.table c).rebinds s :=
      FdCall.mem_replaced hrun (Int.natCast_nonneg _) hnew hother
    exact .bind (.inl hmem) (cloned_entries hr) (replaced_get? s.world.kernel.fds new r _)
  | searched old r _ hr _ _ hbind =>
    obtain ⟨fd, hfree, hpair⟩ := Option.map_eq_some_iff.mp (hbind.symm.trans hrun)
    cases hpair
    exact .bind (.inr (firstFree_some hfree).1) (cloned_entries hr) fun x => HashMap.get?_insert ..

theorem close_tableStep (fd : Int) :
    TableStep s (.table (.close fd)) { s with world.kernel.fds := (close s.world.kernel.fds fd).2 } := by
  unfold close
  split
  · exact .same rfl
  · rename_i f hf
    have hget := (close_cases (t := s.world.kernel.fds) f).1
    split
    · rename_i t ht
      rw [ht] at hget
      have hrun : FdCall.run s.world.kernel.fds (.close fd) = some (0, t) := by
        simp only [FdCall.run, close, hf, ht]
      have hmem : f ∈ (PollAct.table (.close fd)).rebinds s :=
        FdCall.mem_replaced hrun (le_refl 0) hf (by simp [FdCall.source])
      refine .rebind (fun x r hx hr => ?_) fun x e he => ?_
      · have hne : x ≠ f := fun hxf => hx (hxf ▸ hmem)
        exact (hget x).trans ((if_neg hne).trans hr)
      · have hx := (hget x).symm.trans he
        split at hx
        · cases hx
        · exact .inl hx
    · exact .same rfl

theorem table_tableStep {c : FdCall} (hnot : ∀ r cloexec, c ≠ .insert r cloexec)
    (hrun : c.run s.world.kernel.fds = some (value, t)) :
    TableStep s (.table c) { s with world.kernel.fds := t } := by
  cases c with
  | insert r cloexec => exact absurd rfl (hnot r cloexec)
  | dup | dup2 | dup3 | dupfd => exact dup_tableStep rfl hrun
  | setfd fd on =>
    cases hrun
    exact .same rfl
  | close fd =>
    have ht : (close s.world.kernel.fds fd).2 = t := congrArg Prod.snd (Option.some.inj hrun)
    exact ht ▸ close_tableStep fd

theorem ends_tableStep (ends : PipeRead × PipeWrite)
    (hfds : s'.world.kernel.fds =
      ((s.world.kernel.fds.insert (.pipeRead ends.1)).2.insert (.pipeWrite ends.2)).2) :
    TableStep s (.pipe2 fdarray flags) s' := by
  have hget (x : UInt32) : s'.binding x =
      if x = s.world.kernel.fds.nextFd + 1 then some (.pipeWrite ends.2)
      else if x = s.world.kernel.fds.nextFd then some (.pipeRead ends.1) else s.binding x := by
    rw [Pollers.binding, hfds]
    exact (HashMap.get?_insert ..).trans (if_congr Iff.rfl rfl (HashMap.get?_insert ..))
  refine .rebind (fun x r hx hr => ?_) fun x e he => ?_
  · rw [PollAct.rebinds, List.mem_cons, List.mem_singleton, not_or] at hx
    rw [hget, if_neg hx.2, if_neg hx.1, hr]
  · rw [hget] at he
    split at he
    · cases he
    · split at he
      · cases he
      · exact .inl he

theorem pipe2_tableStep (fdarray flags : Int) :
    TableStep s (.pipe2 fdarray flags) (s.withKernel (pipe2 s.world.kernel fdarray flags).2) := by
  unfold pipe2
  split
  · exact .same rfl
  · dsimp only
    split
    · exact ends_tableStep (makePipe s.world.kernel.cells).1 rfl
    · exact ends_tableStep (makePipe s.world.kernel.cells).1 rfl

theorem counted_tableStep (h : Counted s.world w) (a : PollAct) : TableStep s a { s with world := w } := by
  cases h.table with
  | same hfds => exact .same (congrArg FdTable.table hfds)
  | counter fd e e' he hnotify hfds =>
    refine .counter fd e e' he hnotify fun x => ?_
    rw [Pollers.binding, hfds]
    exact HashMap.get?_insert ..

theorem settle_fds (s : Pollers) (polls : Bool) (out : Polled) :
    (s.settle polls out).world.kernel.fds = s.world.kernel.fds := by
  cases out <;> rfl

theorem next_tableStep (sock : SocketCalls) (h : s.next sock a = some s') : TableStep s a s' := by
  cases a with
  | memory m | socketCall ref inner hasStream | resume i =>
    cases h
    exact .same rfl
  | table c =>
    unfold Pollers.next at h
    dsimp only at h
    split at h
    · cases h
    · rename_i c hnot
      obtain ⟨⟨value, t⟩, hrun, rfl⟩ := Option.map_eq_some_iff.mp h
      exact table_tableStep (fun r cloexec hc => (hnot r cloexec hc).elim) hrun
  | openat fp cloexec =>
    cases h
    refine .bind (.inl (List.mem_singleton_self _)) ?_ fun x => bind_binding s _ _ cloexec x
    intro e he
    cases he
  | socket inner hasStream cloexec =>
    cases h
    refine .bind (.inl (List.mem_singleton_self _)) ?_ fun x => bind_binding s _ _ cloexec x
    intro e he
    cases he
  | eventfd2 counter nonblock cloexec =>
    cases h
    refine .bind (.inl (List.mem_singleton_self _)) ?_ fun x => bind_binding s _ _ cloexec x
    intro e he
    cases he
  | epollCreate1 =>
    cases h
    refine .bind (.inl (List.mem_singleton_self _)) (fun e he => ?_) fun x => HashMap.get?_insert ..
    cases he
    rfl
  | pipe2 fdarray flags =>
    cases h
    exact pipe2_tableStep fdarray flags
  | epollCtl epfd op fd eventPtr =>
    cases h
    exact .ctl epfd op fd eventPtr rfl _ (epollCtl_case s.world.kernel s.sides epfd op fd eventPtr)
  | read fd buf len =>
    simp only [Pollers.next] at h
    split at h
    · cases h
    · rename_i hfd
      cases h
      exact counted_tableStep (read_counted sock (by simpa using hfd) buf len) _
  | write fd buf len =>
    simp only [Pollers.next] at h
    split at h
    · cases h
    · rename_i hfd
      cases h
      exact counted_tableStep (write_counted sock (by simpa using hfd) buf len) _
  | poll fdsPtr nfds timeoutMs | ppoll fdsPtr nfds tsp | epollWait epfd eventsPtr maxevents
  | epollPwait epfd eventsPtr maxevents tsp =>
    cases h
    exact .same (congrArg FdTable.table (settle_fds s ..))

-- ---------------------------------------------------------------------------
-- What a descriptor was registered for
-- ---------------------------------------------------------------------------

/-- The machine with a record of what each descriptor was bound to when it was added to
an instance. -/
structure Registry where
  pollers : Pollers
  owner : UInt32 → UInt32 → Option Resource

namespace Registry

def recorded (g : Registry) : PollAct → UInt32 → UInt32 → Option Resource
  | .epollCtl epfd op fd eventPtr => fun ep f =>
    if u32Fd epfd = some ep ∧ u32Fd fd = some f ∧ ctlOp op = EPOLL_CTL_ADD ∧
        (epollCtl g.pollers.world.kernel g.pollers.sides epfd op fd eventPtr).1 = 0 then
      (g.pollers.binding f).map Resource.object
    else g.owner ep f
  | _ => g.owner

def next (sock : SocketCalls) (g : Registry) (a : PollAct) : Option Registry :=
  (g.pollers.next sock a).map fun s => { pollers := s, owner := g.recorded a }

def start (k : Kernel) (fs : HostFs) : Registry := { pollers := .start k fs, owner := fun _ _ => none }

/-- Every registered descriptor is bound to what it was registered for. -/
def Live (g : Registry) : Prop :=
  ∀ ep e fd entry, g.pollers.binding ep = some (.epoll e) → e.entries.get? fd = some entry →
    ∃ r, g.pollers.binding fd = some r ∧ g.owner ep fd = some r.object

/-- No registered descriptor is closed, replaced or taken as a new number, and an `ADD` or
`MOD`, also one that fails, names a bound one. -/
structure Careful (g : Registry) (a : PollAct) : Prop where
  spares : ∀ fd ∈ a.rebinds g.pollers, ∀ ep e, g.pollers.binding ep = some (.epoll e) →
    e.entries.get? fd = none
  bound : ∀ epfd op fd eventPtr f, a = .epollCtl epfd op fd eventPtr →
    ctlOp op = EPOLL_CTL_ADD ∨ ctlOp op = EPOLL_CTL_MOD → u32Fd fd = some f →
    (g.pollers.binding f).isSome

-- ---------------------------------------------------------------------------
-- Careful runs
-- ---------------------------------------------------------------------------

variable {g : Registry}

theorem Live.other (h : g.Live) (hc : g.Careful a) (hstep : TableStep g.pollers a s')
    (hnot : ∀ epfd op fd eventPtr, a ≠ .epollCtl epfd op fd eventPtr) :
    Live { pollers := s', owner := g.owner } := by
  intro ep e fd entry hep hentry
  cases hstep with
  | rebind hkeep hepoll =>
    rcases hepoll ep e hep with hep | hempty
    · obtain ⟨r, hr, howner⟩ := h ep e fd entry hep hentry
      have hnew : fd ∉ a.rebinds g.pollers := by
        intro hmem
        cases (hc.spares fd hmem ep e hep).symm.trans hentry
      exact ⟨r, hkeep fd r hnew hr, howner⟩
    · rw [hempty] at hentry
      cases hentry
  | counter x c c' hx hnotify htable =>
    have hep' : g.pollers.binding ep = some (.epoll e) := by
      rw [htable] at hep
      split at hep
      · cases hep
      · exact hep
    obtain ⟨r, hr, howner⟩ := h ep e fd entry hep' hentry
    by_cases hfd : fd = x
    · subst hfd
      refine ⟨.eventFd c', (htable fd).trans (if_pos rfl), ?_⟩
      cases hr.symm.trans hx
      rw [howner]
      simp only [Resource.object, hnotify]
    · exact ⟨r, ((htable fd).trans (if_neg hfd)).trans hr, howner⟩
  | ctl epfd op fd eventPtr ha _ _ => exact absurd ha (hnot epfd op fd eventPtr)

/-- The registrations of one instance change in place; every descriptor keeps its object. -/
theorem replaced_object {t : FdTable} (he : t.table.get? ep = some (.epoll e)) (hcancel : e'.cancel = e.cancel)
    (hr : t.table.get? x = some r) :
    ∃ r', (t.table.insert ep (.epoll e')).get? x = some r' ∧ r'.object = r.object := by
  rw [HashMap.get?_insert]
  by_cases hx : x = ep
  · subst hx
    cases hr.symm.trans he
    refine ⟨.epoll e', if_pos rfl, ?_⟩
    simp only [Resource.object, hcancel]
  · exact ⟨r, (if_neg hx).trans hr, rfl⟩

theorem Live.replace {owner : UInt32 → UInt32 → Option Resource} (h : g.Live)
    (hep : g.pollers.binding ep = some (.epoll e)) (hcancel : u.cancel = e.cancel)
    (hfds : s'.world.kernel.fds.table = g.pollers.world.kernel.fds.table.insert ep (.epoll u))
    (hother : ∀ x f, x ≠ ep → owner x f = g.owner x f)
    (hentries : ∀ f entry, u.entries.get? f = some entry →
      ∃ r, g.pollers.binding f = some r ∧ owner ep f = some r.object) :
    Live { pollers := s', owner } := by
  intro x e₀ f entry hx hentry
  have hx' : (g.pollers.world.kernel.fds.table.insert ep (.epoll u)).get? x = some (.epoll e₀) := hfds ▸ hx
  obtain ⟨r, hr, howner⟩ : ∃ r, g.pollers.binding f = some r ∧ owner x f = some r.object := by
    rw [HashMap.get?_insert] at hx'
    split at hx'
    · rename_i hxe
      cases hx'
      rw [hxe]
      exact hentries f entry hentry
    · rename_i hxe
      obtain ⟨r, hr, howner⟩ := h x e₀ f entry hx' hentry
      exact ⟨r, hr, (hother x f hxe).trans howner⟩
  obtain ⟨r', hr', hobject⟩ := replaced_object hep hcancel hr
  exact ⟨r', by rw [Pollers.binding, hfds, hr'], howner.trans (congrArg some hobject.symm)⟩

theorem recorded_of_not (hnot : ctlOp op ≠ EPOLL_CTL_ADD ∨
      (epollCtl g.pollers.world.kernel g.pollers.sides epfd op fd eventPtr).1 ≠ 0) :
    g.recorded (.epollCtl epfd op fd eventPtr) = g.owner := by
  funext x f
  refine if_neg ?_
  rintro ⟨-, -, hop, hvalue⟩
  exact hnot.elim (fun h => h hop) fun h => h hvalue

theorem Live.epollCtl (h : g.Live) (hc : g.Careful (.epollCtl epfd op fd eventPtr)) :
    Live { pollers := g.pollers.withKernel
             (Sys.epollCtl g.pollers.world.kernel g.pollers.sides epfd op fd eventPtr).2.1
           owner := g.recorded (.epollCtl epfd op fd eventPtr) } := by
  have hcase := epollCtl_case g.pollers.world.kernel g.pollers.sides epfd op fd eventPtr
  cases hcase with
  | refused hvalue hfds =>
    rw [recorded_of_not (.inr (ne_of_lt hvalue))]
    intro x e f entry hx hentry
    simp only [Pollers.binding, Pollers.withKernel, hfds] at hx ⊢
    exact h x e f entry hx hentry
  | removed ep f e hep hf he hop hvalue hfds =>
    have hadd : ctlOp op ≠ EPOLL_CTL_ADD := by
      rw [hop]
      decide
    rw [recorded_of_not (.inl hadd)]
    refine h.replace (u := { e with entries := e.entries.erase f }) he rfl
      (congrArg FdTable.table hfds) (fun _ _ _ => rfl) fun f₀ entry hentry => ?_
    rw [HashMap.get?_erase] at hentry
    split at hentry
    · cases hentry
    · exact h ep e f₀ entry he hentry
  | registered ep f e entry hep hf he _ hop hvalue hfds =>
    refine h.replace (u := { e with entries := e.entries.insert f entry }) he rfl
      (congrArg FdTable.table hfds) (fun x f₀ hx => ?_) fun f₀ entry' hentry => ?_
    · refine if_neg fun hrec => hx ?_
      exact Option.some.inj (hrec.1.symm.trans hep)
    · rw [HashMap.get?_insert] at hentry
      by_cases hadd : f₀ = f ∧ ctlOp op = EPOLL_CTL_ADD
      · obtain ⟨rfl, hadd⟩ := hadd
        obtain ⟨r, hr⟩ := Option.isSome_iff_exists.mp (hc.bound epfd op fd eventPtr f₀ rfl (.inl hadd) hf)
        refine ⟨r, hr, (if_pos ⟨hep, hf, hadd, hvalue⟩).trans ?_⟩
        rw [hr, Option.map_some]
      · have hold : (e.entries.get? f₀).isSome := by
          split at hentry
          · rename_i hfe
            subst hfe
            rcases hop with ⟨hop, -⟩ | ⟨-, hsome⟩
            · exact absurd ⟨rfl, hop⟩ hadd
            · exact hsome
          · rw [hentry]
            rfl
        obtain ⟨old, hold⟩ := Option.isSome_iff_exists.mp hold
        obtain ⟨r, hr, howner⟩ := h ep e f₀ old he hold
        refine ⟨r, hr, (if_neg fun hrec => hadd ⟨?_, hrec.2.2.1⟩).trans howner⟩
        exact Option.some.inj (hrec.2.1.symm.trans hf)

theorem Live.next (sock : SocketCalls) (h : g.Live) (hc : g.Careful a) (hs : g.next sock a = some g') :
    g'.Live := by
  obtain ⟨s, hnext, rfl⟩ := Option.map_eq_some_iff.mp hs
  have hstep := next_tableStep sock hnext
  cases a with
  | epollCtl epfd op fd eventPtr =>
    cases hnext
    exact h.epollCtl hc
  | memory | table | openat | socket | socketCall | eventfd2 | pipe2 | epollCreate1 | read | write | poll
  | ppoll | epollWait | epollPwait | resume =>
    refine h.other hc hstep fun epfd op fd eventPtr ha => ?_
    cases ha

theorem new_epoll (args : List String) (env : List (String × String)) (vfs : Vfs) (seed : RngSeed)
    (fd : UInt32) (e : EpollInner) : (Kernel.new args env vfs seed).fds.table.get? fd ≠ some (.epoll e) := by
  have hall : ∀ p ∈ (FdTable.withBufferedStdio .empty).1.table.entries,
      p.2 = .stdin ⟨0, 0⟩ ∨ p.2 = .stdout ⟨0, 1⟩ ∨ p.2 = .stderr ⟨1, 3⟩ := by decide
  intro hget
  rcases hall (fd, .epoll e) (HashMap.get?_eq_some_iff.mp hget) with h | h | h <;> cases h

/-- In careful runs every registered descriptor stays bound to what it was registered for. -/
theorem registrations_live (sock : SocketCalls) (args : List String) (env : List (String × String))
    (vfs : Vfs) (seed : RngSeed) (fs : HostFs)
    (h : Reaches (Registry.next sock) Registry.Careful (.start (.new args env vfs seed) fs) g) : g.Live := by
  refine h.invariant ?_ fun _ _ _ hlive hc hs => Live.next sock hlive hc hs
  intro ep e fd entry hep
  exact absurd hep (new_epoll args env vfs seed ep e)

-- ---------------------------------------------------------------------------
-- An instance that watches one descriptor
-- ---------------------------------------------------------------------------

theorem epollCtl_add {k : Kernel} (sides : Nat → SocketSide) (hep : u32Fd epfd = some ep)
    (hf : u32Fd fd = some f) (he : k.fds.table.get? ep = some (.epoll e)) (hnew : e.entries.get? f = none)
    (hs : guestSlice k.memory eventPtr EPOLL_EVENT_SIZE = .ok event) :
    ∃ cells entry, entry.fd = f ∧ entry.events = ofLe32 (event.take 4) ∧
      Sys.epollCtl k sides epfd EPOLL_CTL_ADD fd eventPtr = (0, { k with
        fds.table := k.fds.table.insert ep (.epoll { e with entries := e.entries.insert f entry })
        cells }, true) := by
  have hadd : (BitVec.ofInt 32 EPOLL_CTL_ADD).toInt = EPOLL_CTL_ADD := by decide
  have hmod : ¬ EPOLL_CTL_ADD = EPOLL_CTL_MOD := by decide
  have hcontains : e.entries.containsKey f = false := by rw [HashMap.containsKey, hnew]; rfl
  simp only [Sys.epollCtl, hep, hf, FdTable.get_ok.mpr he, hadd, true_or, if_true, hs, hcontains,
    Bool.false_eq_true, and_false, if_false, hmod, false_and]
  exact ⟨_, _, rfl, rfl, rfl⟩

def booted : Registry :=
  .start (.new [] [] { root := "/", cwd := "/" } (Vector.replicate 32 0)) { contents := fun _ => none }

def watching : Registry where
  pollers := booted.pollers.withKernel
    (Sys.epollCreate1 { booted.pollers.world.kernel with memory := some (.owned .zeroPage) }).2
  owner := booted.owner

theorem watching_instance :
    watching.pollers.binding 3 = some (.epoll { entries := .empty, cancel := 4, selfEventFd := none }) := rfl

theorem watching_event :
    guestSlice watching.pollers.world.kernel.memory 0 EPOLL_EVENT_SIZE = .ok (List.replicate 12 0) :=
  guestSlice_of_load (LinearMemory.zeroPage_load (by decide)) (le_refl 12)

def added (fd : Int) : Registry where
  pollers := watching.pollers.withKernel
    (Sys.epollCtl watching.pollers.world.kernel watching.pollers.sides 3 EPOLL_CTL_ADD fd 0).2.1
  owner := watching.recorded (.epollCtl 3 EPOLL_CTL_ADD fd 0)

theorem next_added (sock : SocketCalls) (fd : Int) :
    watching.next sock (.epollCtl 3 EPOLL_CTL_ADD fd 0) = some (added fd) := rfl

theorem reaches_watching (sock : SocketCalls) {ok : Registry → PollAct → Prop}
    (hm : ok booted (.memory (some (.owned .zeroPage))))
    (hc : ok { booted with pollers.world.kernel.memory := some (.owned .zeroPage) } .epollCreate1) :
    Reaches (Registry.next sock) ok booted watching :=
  .step (.step .start hm rfl) hc rfl

theorem added_eq (hf : u32Fd fd = some f) :
    ∃ cells entry, entry.fd = f ∧ entry.events = 0 ∧
      Sys.epollCtl watching.pollers.world.kernel watching.pollers.sides 3 EPOLL_CTL_ADD fd 0 =
        (0, { watching.pollers.world.kernel with
          fds.table := watching.pollers.world.kernel.fds.table.insert 3
            (.epoll { entries := HashMap.empty.insert f entry, cancel := 4, selfEventFd := none })
          cells }, true) := by
  have hep : u32Fd 3 = some 3 := by decide
  obtain ⟨cells, entry, hentry, hevents, heq⟩ :=
    epollCtl_add watching.pollers.sides hep hf watching_instance rfl watching_event
  exact ⟨cells, entry, hentry, hevents.trans (by decide), heq⟩

theorem added_registered (hf : u32Fd fd = some f) :
    ∃ entry, entry.fd = f ∧ entry.events = 0 ∧
      (added fd).pollers.binding 3 =
        some (.epoll { entries := HashMap.empty.insert f entry, cancel := 4, selfEventFd := none }) ∧
      (added fd).pollers.world.kernel.memory = watching.pollers.world.kernel.memory ∧
      ∀ x, x ≠ 3 → (added fd).pollers.binding x = watching.pollers.binding x := by
  obtain ⟨cells, entry, hentry, hevents, heq⟩ := added_eq hf
  refine ⟨entry, hentry, hevents, ?_, ?_, fun x hx => ?_⟩
  · simp only [added, Pollers.binding, Pollers.withKernel, heq]
    exact (HashMap.get?_insert ..).trans (if_pos rfl)
  · simp only [added, Pollers.withKernel, heq]
  · simp only [added, Pollers.binding, Pollers.withKernel, heq]
    exact (HashMap.get?_insert ..).trans (if_neg hx)

theorem get?_one (f : UInt32) (entry : EpollEntry) : (HashMap.empty.insert f entry).get? f = some entry :=
  (HashMap.get?_insert ..).trans (if_pos rfl)

theorem added_owner (hf : u32Fd fd = some f) :
    (added fd).owner 3 f = (watching.pollers.binding f).map Resource.object := by
  have hep : u32Fd 3 = some 3 := by decide
  obtain ⟨_, _, -, -, heq⟩ := added_eq hf
  exact if_pos ⟨hep, hf, by decide, congrArg Prod.fst heq⟩

theorem booted_careful : booted.Careful (.memory (some (.owned .zeroPage))) :=
  ⟨fun _ hfd => (List.not_mem_nil hfd).elim, fun _ _ _ _ _ ha => by cases ha⟩

theorem unwatched_careful :
    Careful { booted with pollers.world.kernel.memory := some (.owned .zeroPage) } .epollCreate1 :=
  ⟨fun _ _ ep e hep => absurd hep (new_epoll [] [] { root := "/", cwd := "/" } (Vector.replicate 32 0) ep e),
    fun _ _ _ _ _ ha => by cases ha⟩

/-- Standard input is added to the instance. -/
theorem registrations_live_stdin :
    ∃ g e entry, Reaches (Registry.next noSockets) Registry.Careful booted g ∧
      g.pollers.binding 3 = some (.epoll e) ∧ e.entries.get? 0 = some entry ∧ g.Live := by
  have hf : u32Fd 0 = some 0 := by decide
  have hadd : watching.Careful (.epollCtl 3 EPOLL_CTL_ADD 0 0) := by
    refine ⟨fun _ hfd => (List.not_mem_nil hfd).elim, ?_⟩
    intro epfd op fd eventPtr f ha _ hfd
    cases ha
    cases hf.symm.trans hfd
    rfl
  have hreach : Reaches (Registry.next noSockets) Registry.Careful booted (added 0) :=
    .step (reaches_watching noSockets booted_careful unwatched_careful) hadd (next_added noSockets 0)
  obtain ⟨entry, -, -, hep, -, -⟩ := added_registered hf
  exact ⟨_, _, entry, hreach, hep, get?_one 0 entry, registrations_live noSockets [] [] _ _ _ hreach⟩

theorem cloned_stdout {t : FdTable} (h : t.table.get? fd = some (.stdout p)) :
    t.cloned fd = .ok (.stdout p) := by
  rw [FdTable.cloned, FdTable.get_ok.mpr h]

theorem run_dup2 (hold : u32Fd oldfd = some old) (hnew : u32Fd newfd = some new) (hne : old ≠ new) :
    FdCall.run t (.dup2 oldfd newfd) = t.internalDup old (some new) false := by
  simp only [FdCall.run, dup2, hold, hnew, if_neg hne]

theorem next_dup2 (sock : SocketCalls)
    (h : FdCall.run g.pollers.world.kernel.fds (.dup2 oldfd newfd) = some (value, t)) :
    g.next sock (.table (.dup2 oldfd newfd)) =
      some { pollers := { g.pollers with world.kernel.fds := t }, owner := g.owner } := by
  simp only [next, Pollers.next, h, Option.map_some, recorded]

theorem dup2_stdout (sock : SocketCalls) (hout : g.pollers.binding 1 = some (.stdout p)) :
    ∃ g', g.next sock (.table (.dup2 1 0)) = some g' ∧ g'.pollers.binding 0 = some (.stdout p) ∧
      g'.pollers.binding 3 = g.pollers.binding 3 ∧ g'.owner = g.owner := by
  have hone : u32Fd 1 = some 1 := by decide
  have hzero : u32Fd 0 = some 0 := by decide
  have hrun := run_dup2 (t := g.pollers.world.kernel.fds) hone hzero (by decide)
  rw [internalDup_named (cloned_stdout hout)] at hrun
  have hget := replaced_get? g.pollers.world.kernel.fds 0 (.stdout p) false
  exact ⟨_, next_dup2 sock hrun, (hget 0).trans (if_pos rfl), (hget 3).trans (if_neg (by decide)), rfl⟩

/-- Descriptor 7 is added, which is not bound, and returns 0; and descriptor 0 is added
and then replaced by a duplicate of standard output, which takes over the registration. -/
theorem registrations_go_stale :
    (∃ g e entry, Reaches (Registry.next noSockets) (fun _ _ => True) booted g ∧
        (Sys.epollCtl watching.pollers.world.kernel watching.pollers.sides 3 EPOLL_CTL_ADD 7 0).1 = 0 ∧
        g.pollers.binding 3 = some (.epoll e) ∧ e.entries.get? 7 = some entry ∧
        g.pollers.binding 7 = none ∧ ¬ g.Live) ∧
      ∃ g e entry, Reaches (Registry.next noSockets) (fun _ _ => True) booted g ∧
        g.pollers.binding 3 = some (.epoll e) ∧ e.entries.get? 0 = some entry ∧
        g.owner 3 0 = some (.stdin ⟨0, 0⟩) ∧ g.pollers.binding 0 = some (.stdout ⟨0, 1⟩) ∧ ¬ g.Live := by
  have hreach (fd : Int) : Reaches (Registry.next noSockets) (fun _ _ => True) booted (added fd) :=
    .step (reaches_watching noSockets trivial trivial) trivial (next_added noSockets fd)
  refine ⟨?_, ?_⟩
  · have hf : u32Fd 7 = some 7 := by decide
    obtain ⟨_, _, -, -, heq⟩ := added_eq hf
    obtain ⟨entry, -, -, hinst, -, hother⟩ := added_registered hf
    have hfree : (added 7).pollers.binding 7 = none := (hother 7 (by decide)).trans rfl
    refine ⟨_, _, entry, hreach 7, congrArg Prod.fst heq, hinst, get?_one 7 entry, hfree, fun hlive => ?_⟩
    obtain ⟨r, hr, -⟩ := hlive 3 _ 7 entry hinst (get?_one 7 entry)
    cases hfree.symm.trans hr
  · have hf : u32Fd 0 = some 0 := by decide
    obtain ⟨entry, -, -, hinst, -, hother⟩ := added_registered hf
    have hout : (added 0).pollers.binding 1 = some (.stdout ⟨0, 1⟩) := (hother 1 (by decide)).trans rfl
    obtain ⟨g, hstep, hzero, hthree, hsame⟩ := dup2_stdout noSockets hout
    have howner : g.owner 3 0 = some (.stdin ⟨0, 0⟩) := by
      rw [hsame, added_owner hf]
      rfl
    rw [hinst] at hthree
    refine ⟨g, _, entry, .step (hreach 0) trivial hstep, hthree, get?_one 0 entry, howner, hzero, fun hlive => ?_⟩
    obtain ⟨r, hr, hobject⟩ := hlive 3 _ 0 entry hthree (get?_one 0 entry)
    cases hzero.symm.trans hr
    cases howner.symm.trans hobject

end Registry

end Sys

end EdgeLibos
