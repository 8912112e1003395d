import EdgeLibos.Lib.Masks
import EdgeLibos.Sys.Registrations
import EdgeLibos.Sys.Stdio

/-!
# EpollWaiting on an epoll instance

`epoll_wait` with what it writes to the guest. It takes a copy of the registrations,
parks when none of them is ready, and after it was woken looks again at the same copy,
whatever `epoll_ctl` did to the instance in between. When a parked call is woken is left
open: its timeout may end it at any time.
-/

namespace EdgeLibos.Sys

open Errno Lib

/-- A parked call: where it writes, and its copy of the instance. -/
structure EpollWaiting where
  epfd : UInt32
  eventsPtr : Int
  maxevents : Nat
  entries : HashMap UInt32 EpollEntry
  cancel : Nat

inductive Begun
  | returns (value : Int) (memory : Option MemoryKind) (written : List (EpollEntry × UInt32))
  | parks (q : EpollWaiting)

section
variable (k : Kernel) (sides : Nat → SocketSide)

def packed (eventsPtr : Int) (maxevents : Nat) (ready : List (EpollEntry × UInt32)) :
    List (EpollEntry × UInt32) :=
  match packEvents k eventsPtr maxevents ready with
  | .returns value _ => if value < 0 then [] else ready.take maxevents
  | .parks .. => []

def packEnd (eventsPtr : Int) (maxevents : Nat) (ready : List (EpollEntry × UInt32)) :
    Int × Option MemoryKind :=
  match packEvents k eventsPtr maxevents ready with
  | .returns value memory => (value, memory)
  | .parks .. => (0, k.memory)

/-- `epoll_wait` up to the point where it returns or parks. -/
def epollBegin (epfd eventsPtr maxevents : Int) : Begun :=
  match u32Fd epfd with
  | none => .returns (-EBADF) k.memory []
  | some epfd =>
    if maxevents ≤ 0 then .returns (-EINVAL) k.memory []
    else
      match guestSlice k.memory eventsPtr (Int.bmod (maxevents * EPOLL_EVENT_SIZE) (2 ^ 64)) with
      | .error e => .returns e k.memory []
      | .ok _ =>
        match k.fds.get epfd with
        | .error e => .returns e k.memory []
        | .ok (.epoll e) =>
          if e.entries.entries.isEmpty then .returns 0 k.memory []
          else
            let immediate := snapshotReadiness k sides e.entries
            if !immediate.isEmpty then
              let (value, memory) := packEnd k eventsPtr maxevents.toNat immediate
              .returns value memory (packed k eventsPtr maxevents.toNat immediate)
            else
              .parks { epfd, eventsPtr, maxevents := maxevents.toNat, entries := e.entries, cancel := e.cancel }
        | .ok _ => .returns (-EBADF) k.memory []

/-- The call writes nothing, writes what it finds ready or parks with a copy. -/
inductive BeginCase (epfd eventsPtr : Int) : Begun → Prop
  | nothing (value : Int) (memory : Option MemoryKind) : BeginCase epfd eventsPtr (.returns value memory [])
  | ready (ep : UInt32) (e : EpollInner) (hep : u32Fd epfd = some ep)
      (he : k.fds.table.get? ep = some (.epoll e)) (value : Int) (memory : Option MemoryKind) (n : Nat) :
      BeginCase epfd eventsPtr
        (.returns value memory (packed k eventsPtr n (snapshotReadiness k sides e.entries)))
  | parks (ep : UInt32) (e : EpollInner) (he : k.fds.table.get? ep = some (.epoll e)) (n : Nat) :
      BeginCase epfd eventsPtr
        (.parks { epfd := ep, eventsPtr, maxevents := n, entries := e.entries, cancel := e.cancel })

theorem epollBegin_case (epfd eventsPtr maxevents : Int) :
    BeginCase k sides epfd eventsPtr (epollBegin k sides epfd eventsPtr maxevents) := by
  unfold epollBegin
  cases hep : u32Fd epfd with
  | none => exact .nothing ..
  | some ep =>
    dsimp only
    split
    · exact .nothing ..
    · split
      · exact .nothing ..
      · split
        · exact .nothing ..
        · rename_i e hget
          have he := FdTable.get_ok.mp hget
          split
          · exact .nothing ..
          · split
            · exact .ready ep e hep he ..
            · exact .parks ep e he _
        · exact .nothing ..

def Begun.polled : Begun → Polled
  | .returns value memory _ => .returns value memory
  | .parks q =>
    let entries := q.entries.entries.map Prod.snd
    .parks (entries.filterMap fun e => k.fds.table.get? e.fd)
      (waitAnyFirst (entries.map EpollEntry.wake) ++ [q.cancel])

theorem packEvents_eq (eventsPtr : Int) (maxevents : Nat) (ready : List (EpollEntry × UInt32)) :
    packEvents k eventsPtr maxevents ready = .returns (packEnd k eventsPtr maxevents ready).1
      (packEnd k eventsPtr maxevents ready).2 := by
  unfold packEnd packEvents
  dsimp only
  split
  · rfl
  · rfl

theorem epollBegin_polled (epfd eventsPtr maxevents : Int) :
    (epollBegin k sides epfd eventsPtr maxevents).polled k = epollWait k sides epfd eventsPtr maxevents := by
  unfold epollBegin epollWait
  cases u32Fd epfd with
  | none => rfl
  | some ep =>
    dsimp only
    by_cases hmax : maxevents ≤ 0
    · rw [if_pos hmax, if_pos hmax]
      rfl
    · rw [if_neg hmax, if_neg hmax]
      cases guestSlice k.memory eventsPtr (Int.bmod (maxevents * EPOLL_EVENT_SIZE) (2 ^ 64)) with
      | error e => rfl
      | ok bytes =>
        cases k.fds.get ep with
        | error e => rfl
        | ok r =>
          cases r with
          | epoll e =>
            dsimp only
            cases e.entries.entries.isEmpty with
            | true => rfl
            | false =>
              cases (snapshotReadiness k sides e.entries).isEmpty with
              | true => rfl
              | false => exact (packEvents_eq k eventsPtr maxevents.toNat _).symm
          | stdin | stdout | stderr | file | pipeRead | pipeWrite | socket | eventFd => rfl

end

-- ---------------------------------------------------------------------------
-- What was reported
-- ---------------------------------------------------------------------------

/-- A call that returned: the registrations of its instance at that moment, and the events
it wrote. -/
structure Report where
  registered : HashMap UInt32 EpollEntry
  written : List (EpollEntry × UInt32)

/-- What a registration lets be reported: the events asked for, and errors always. -/
def reportable (events : UInt32) : UInt32 := events ||| EPOLLERR ||| EPOLLHUP

/-- Every event is of a descriptor that is registered, with the data and the events of its
registration, and no descriptor is there twice. -/
structure Report.Current (rep : Report) : Prop where
  each : ∀ x ∈ rep.written, ∃ entry, rep.registered.get? x.1.fd = some entry ∧
    entry.data = x.1.data ∧ Within x.2 (reportable entry.events)
  once : (rep.written.map fun x => x.1.fd).Nodup

structure EpollWaits where
  pollers : Pollers
  waiting : List EpollWaiting
  reports : List Report

inductive WaitAct
  | call (a : PollAct)
  | wait (epfd eventsPtr maxevents : Int)
  | wake (i : Nat)

namespace EpollWaits

variable (s : EpollWaits)

def registeredAt (ep : UInt32) : HashMap UInt32 EpollEntry :=
  match s.pollers.binding ep with
  | some (.epoll e) => e.entries
  | _ => .empty

def finish (ep : UInt32) (memory : Option MemoryKind) (written : List (EpollEntry × UInt32)) : EpollWaits :=
  { s with
    pollers.world.kernel.memory := memory
    reports := { registered := s.registeredAt ep, written } :: s.reports }

def begin (epfd eventsPtr maxevents : Int) : EpollWaits :=
  match epollBegin s.pollers.world.kernel s.pollers.sides epfd eventsPtr maxevents with
  | .returns _ memory written => s.finish ((u32Fd epfd).getD 0) memory written
  | .parks q => { s with waiting := s.waiting ++ [q] }

/-- The last phase: readiness is looked up again, for the copy. -/
def wake (q : EpollWaiting) : EpollWaits :=
  let ready := snapshotReadiness s.pollers.world.kernel s.pollers.sides q.entries
  s.finish q.epfd (packEnd s.pollers.world.kernel q.eventsPtr q.maxevents ready).2
    (packed s.pollers.world.kernel q.eventsPtr q.maxevents ready)

/-- Every `epoll_wait` is a `wait` here, and so is an `epoll_pwait` that does not fail. -/
def next (sock : SocketCalls) : WaitAct → Option EpollWaits
  | .call (.epollWait ..) | .call (.epollPwait ..) => none
  | .call a => (s.pollers.next sock a).map fun p => { s with pollers := p }
  | .wait epfd eventsPtr maxevents => some (s.begin epfd eventsPtr maxevents)
  | .wake i => s.waiting[i]?.map fun q => { s with waiting := s.waiting.eraseIdx i }.wake q

def start (k : Kernel) (fs : HostFs) : EpollWaits := { pollers := .start k fs, waiting := [], reports := [] }

/-- While a call is parked, its instance is not closed or replaced, and no `MOD` or `DEL`,
failed ones included, names what it has a copy of. -/
def Undisturbed : WaitAct → Prop
  | .call a => ∀ q ∈ s.waiting, q.epfd ∉ a.rebinds s.pollers ∧
      ∀ epfd op fd eventPtr f, a = .epollCtl epfd op fd eventPtr → u32Fd epfd = some q.epfd →
        u32Fd fd = some f → ctlOp op = EPOLL_CTL_MOD ∨ ctlOp op = EPOLL_CTL_DEL → q.entries.get? f = none
  | .wait .. | .wake _ => True

end EpollWaits

-- ---------------------------------------------------------------------------
-- What a look at a copy reports
-- ---------------------------------------------------------------------------

theorem computeRevents_within (k : Kernel) (sides : Nat → SocketSide) (fd requested : UInt32) :
    Within (computeRevents k sides fd requested) (reportable requested) := by
  have hin (h : requested &&& EPOLLIN ≠ 0) : Within EPOLLIN (reportable requested) :=
    ((Within.bit 0 rfl h).left _).left _
  have hout (h : requested &&& EPOLLOUT ≠ 0) : Within EPOLLOUT (reportable requested) :=
    ((Within.bit 2 rfl h).left _).left _
  have herr : Within EPOLLERR (reportable requested) :=
    Within.left (Within.right (by decide : EPOLLERR &&& EPOLLERR = EPOLLERR) _) _
  have hhup : Within EPOLLHUP (reportable requested) :=
    Within.right (by decide : EPOLLHUP &&& EPOLLHUP = EPOLLHUP) _
  have hzero := Within.zero (reportable requested)
  unfold computeRevents
  dsimp only
  split
  · exact herr.or hhup
  · refine Within.or ?_ ?_
    · split_ifs with h <;> first | exact hin h | exact herr | exact hzero
    · split_ifs with h <;> first | exact hout h | exact herr | exact hzero
  · split_ifs with h <;> first | exact hin h.1 | exact hzero
  · split_ifs with h <;> first | exact hin h.1 | exact hzero
  · split_ifs with h <;> first | exact hout h | exact hzero
  · split_ifs with h <;> first | exact hout h | exact hzero
  · split_ifs with h <;> first | exact hout h | exact hzero
  · refine Within.or ?_ ?_
    · split_ifs with h <;> first | exact hin h | exact hzero
    · split_ifs with h <;> first | exact hout h | exact hzero
  · split_ifs with h <;> first | exact hin h | exact hzero
  · exact herr

/-- A registration is kept under its own descriptor. -/
def Keyed (m : HashMap UInt32 EpollEntry) : Prop := ∀ fd entry, m.get? fd = some entry → entry.fd = fd

theorem mem_snapshot {m : HashMap UInt32 EpollEntry} (h : x ∈ snapshotReadiness k sides m) :
    (∃ fd, m.get? fd = some x.1) ∧ x.2 = computeRevents k sides x.1.fd x.1.events := by
  obtain ⟨p, hp, rfl⟩ := List.mem_map.mp (List.mem_filter.mp h).1
  exact ⟨⟨p.1, HashMap.get?_eq_some_iff.mpr hp⟩, rfl⟩

theorem nodup_snapshot {m : HashMap UInt32 EpollEntry} (h : Keyed m) :
    ((snapshotReadiness k sides m).map fun x => x.1.fd).Nodup := by
  have hkeys : m.entries.map (fun p => p.2.fd) = m.entries.map Prod.fst :=
    List.map_congr_left fun p hp => h p.1 p.2 (HashMap.get?_eq_some_iff.mpr hp)
  have hall : ((m.entries.map fun p => (p.2, computeRevents k sides p.2.fd p.2.events)).map
      fun x => x.1.fd).Nodup := by
    rw [List.map_map, show (fun x : EpollEntry × UInt32 => x.1.fd) ∘ _ = fun p : UInt32 × EpollEntry => p.2.fd from
      rfl, hkeys]
    exact m.nodup
  exact (List.filter_sublist.map _).nodup hall

theorem packed_sublist (k : Kernel) (eventsPtr : Int) (maxevents : Nat) (ready : List (EpollEntry × UInt32)) :
    (packed k eventsPtr maxevents ready).Sublist ready := by
  unfold packed
  split
  · split
    · exact List.nil_sublist _
    · exact List.take_sublist ..
  · exact List.nil_sublist _

theorem current_packed {m reg : HashMap UInt32 EpollEntry} (hkeyed : Keyed m)
    (hsub : ∀ fd entry, m.get? fd = some entry → reg.get? fd = some entry) :
    Report.Current { registered := reg, written := packed k eventsPtr maxevents (snapshotReadiness k sides m) } := by
  have hsublist := packed_sublist k eventsPtr maxevents (snapshotReadiness k sides m)
  refine ⟨fun x hx => ?_, (hsublist.map _).nodup (nodup_snapshot hkeyed)⟩
  obtain ⟨⟨fd, hfd⟩, hrevents⟩ := mem_snapshot (hsublist.subset hx)
  refine ⟨x.1, ?_, rfl, hrevents ▸ computeRevents_within k sides x.1.fd x.1.events⟩
  rw [hkeyed fd x.1 hfd]
  exact hsub fd x.1 hfd

theorem current_nothing (reg : HashMap UInt32 EpollEntry) :
    Report.Current { registered := reg, written := [] } :=
  ⟨fun _ hx => (List.not_mem_nil hx).elim, List.nodup_nil⟩

-- ---------------------------------------------------------------------------
-- Undisturbed runs
-- ---------------------------------------------------------------------------

namespace EpollWaits

/-- The instance still has all that the parked call has a copy of. -/
def Holds (p : Pollers) (q : EpollWaiting) : Prop :=
  ∃ e, p.binding q.epfd = some (.epoll e) ∧
    ∀ fd entry, q.entries.get? fd = some entry → e.entries.get? fd = some entry

structure Inv (s : EpollWaits) : Prop where
  keyed : ∀ ep e, s.pollers.binding ep = some (.epoll e) → Keyed e.entries
  holds : ∀ q ∈ s.waiting, Holds s.pollers q
  reports : ∀ rep ∈ s.reports, rep.Current

variable {s s' : EpollWaits}

theorem keyed_insert {m : HashMap UInt32 EpollEntry} (h : Keyed m) (hentry : entry.fd = f) :
    Keyed (m.insert f entry) := by
  intro fd x hx
  rw [HashMap.get?_insert] at hx
  split at hx
  · rename_i hfd
    cases hx
    rw [hentry, hfd]
  · exact h fd x hx

theorem keyed_erase {m : HashMap UInt32 EpollEntry} (h : Keyed m) : Keyed (m.erase f) := by
  intro fd x hx
  rw [HashMap.get?_erase] at hx
  split at hx
  · cases hx
  · exact h fd x hx

theorem step_keyed (h : ∀ ep e, p.binding ep = some (.epoll e) → Keyed e.entries) (hstep : TableStep p a p') :
    ∀ ep e, p'.binding ep = some (.epoll e) → Keyed e.entries := by
  intro ep e hep
  cases hstep with
  | rebind hkeep hepoll =>
    rcases hepoll ep e hep with hep | hempty
    · exact h ep e hep
    · rw [hempty]
      intro fd entry hentry
      cases hentry
  | counter fd c c' _ _ htable =>
    rw [htable] at hep
    split at hep
    · cases hep
    · exact h ep e hep
  | ctl epfd op fd eventPtr ha value hcase =>
    cases hcase with
    | refused _ hfds =>
      rw [Pollers.binding, hfds] at hep
      exact h ep e hep
    | registered ep₀ f e₀ entry _ _ he hentry _ _ hfds =>
      rw [Pollers.binding, hfds, HashMap.get?_insert] at hep
      split at hep
      · cases hep
        exact keyed_insert (h ep₀ e₀ he) hentry
      · exact h ep e hep
    | removed ep₀ f e₀ _ _ he _ _ hfds =>
      rw [Pollers.binding, hfds, HashMap.get?_insert] at hep
      split at hep
      · cases hep
        exact keyed_erase (h ep₀ e₀ he)
      · exact h ep e hep

/-- What is registered in place of a copied registration is the same one. -/
theorem Holds.replace (h : Holds p q) (he : p.binding ep = some (.epoll e))
    (hfds : p'.world.kernel.fds.table = p.world.kernel.fds.table.insert ep (.epoll u))
    (hkeep : q.epfd = ep → ∀ fd entry, q.entries.get? fd = some entry → e.entries.get? fd = some entry →
      u.entries.get? fd = some entry) : Holds p' q := by
  obtain ⟨e₀, hep, hsub⟩ := h
  simp only [Holds, Pollers.binding, hfds, HashMap.get?_insert]
  by_cases hq : q.epfd = ep
  · rw [hq] at hep
    cases hep.symm.trans he
    exact ⟨u, if_pos hq, fun fd entry hentry => hkeep hq fd entry hentry (hsub fd entry hentry)⟩
  · exact ⟨e₀, (if_neg hq).trans hep, hsub⟩

theorem Holds.ctl (h : Holds p q)
    (hctl : ∀ f, u32Fd epfd = some q.epfd → u32Fd fd = some f →
      ctlOp op = EPOLL_CTL_MOD ∨ ctlOp op = EPOLL_CTL_DEL → q.entries.get? f = none)
    (hcase : CtlCase p.world.kernel epfd op fd value p'.world.kernel.fds) : Holds p' q := by
  cases hcase with
  | refused _ hfds =>
    obtain ⟨e, hep, hsub⟩ := h
    refine ⟨e, ?_, hsub⟩
    rw [Pollers.binding, hfds]
    exact hep
  | registered ep f e entry hep hf he _ hop _ hfds =>
    refine h.replace (u := { e with entries := e.entries.insert f entry }) he (congrArg FdTable.table hfds) ?_
    intro hq x old hcopy hold
    have hx : x ≠ f := by
      rintro rfl
      rcases hop with ⟨-, hnew⟩ | ⟨hmod, -⟩
      · cases hnew.symm.trans hold
      · cases (hctl x (hq ▸ hep) hf (.inl hmod)).symm.trans hcopy
    exact (HashMap.get?_insert ..).trans ((if_neg hx).trans hold)
  | removed ep f e hep hf he hop _ hfds =>
    refine h.replace (u := { e with entries := e.entries.erase f }) he (congrArg FdTable.table hfds) ?_
    intro hq x old hcopy hold
    have hx : x ≠ f := by
      rintro rfl
      cases (hctl x (hq ▸ hep) hf (.inr hop)).symm.trans hcopy
    exact (HashMap.get?_erase ..).trans ((if_neg hx).trans hold)

theorem Holds.step (h : Holds p q) (hq : q.epfd ∉ a.rebinds p)
    (hctl : ∀ epfd op fd eventPtr f, a = .epollCtl epfd op fd eventPtr → u32Fd epfd = some q.epfd →
      u32Fd fd = some f → ctlOp op = EPOLL_CTL_MOD ∨ ctlOp op = EPOLL_CTL_DEL → q.entries.get? f = none)
    (hstep : TableStep p a p') : Holds p' q := by
  cases hstep with
  | rebind hkeep _ =>
    obtain ⟨e, hep, hsub⟩ := h
    exact ⟨e, hkeep q.epfd _ hq hep, hsub⟩
  | counter fd c c' hfd _ htable =>
    obtain ⟨e, hep, hsub⟩ := h
    have hne : q.epfd ≠ fd := by
      intro heq
      rw [heq] at hep
      cases hep.symm.trans hfd
    exact ⟨e, (htable q.epfd).trans ((if_neg hne).trans hep), hsub⟩
  | ctl epfd op fd eventPtr ha value hcase =>
    exact h.ctl (fun f => hctl epfd op fd eventPtr f ha) hcase

theorem Inv.finish (h : s.Inv) (hrep : Report.Current { registered := s.registeredAt ep, written }) :
    (s.finish ep memory written).Inv where
  keyed := h.keyed
  holds := h.holds
  reports rep hmem := by
    rcases List.mem_cons.mp hmem with rfl | hmem
    · exact hrep
    · exact h.reports rep hmem

theorem registeredAt_of_binding (h : s.pollers.binding ep = some (.epoll e)) :
    s.registeredAt ep = e.entries := by
  rw [registeredAt, h]

theorem Inv.begin (h : s.Inv) (epfd eventsPtr maxevents : Int) : (s.begin epfd eventsPtr maxevents).Inv := by
  have hcase := epollBegin_case s.pollers.world.kernel s.pollers.sides epfd eventsPtr maxevents
  unfold EpollWaits.begin
  generalize epollBegin s.pollers.world.kernel s.pollers.sides epfd eventsPtr maxevents = begun at hcase
  cases hcase with
  | nothing value memory => exact h.finish (current_nothing _)
  | ready ep e hep he value memory n =>
    refine h.finish ?_
    rw [hep, Option.getD_some, registeredAt_of_binding he]
    exact current_packed (h.keyed ep e he) fun _ _ hentry => hentry
  | parks ep e he n =>
    refine ⟨h.keyed, fun q hq => ?_, h.reports⟩
    rcases List.mem_append.mp hq with hq | hq
    · exact h.holds q hq
    · cases List.mem_singleton.mp hq
      exact ⟨e, he, fun _ _ hentry => hentry⟩

theorem Inv.wake (h : s.Inv) (hq : Holds s.pollers q) : (s.wake q).Inv := by
  obtain ⟨e, hep, hsub⟩ := hq
  refine h.finish ?_
  rw [registeredAt_of_binding hep]
  have hkeyed : Keyed q.entries := fun fd entry hentry => h.keyed q.epfd e hep fd entry (hsub fd entry hentry)
  exact current_packed hkeyed hsub

theorem Inv.next (sock : SocketCalls) (h : s.Inv) (hok : s.Undisturbed a) (hs : s.next sock a = some s') :
    s'.Inv := by
  cases a with
  | call a =>
    obtain ⟨p, hp, rfl⟩ : ∃ p, s.pollers.next sock a = some p ∧ { s with pollers := p } = s' := by
      cases a with
      | epollWait => cases hs
      | epollPwait => cases hs
      | memory | table | openat | socket | socketCall | eventfd2 | pipe2 | epollCreate1 | epollCtl | read
      | write | poll | ppoll | resume => exact Option.map_eq_some_iff.mp hs
    have hstep := next_tableStep sock hp
    refine ⟨step_keyed h.keyed hstep, fun q hq => ?_, h.reports⟩
    obtain ⟨hrebinds, hctl⟩ := hok q hq
    exact (h.holds q hq).step hrebinds hctl hstep
  | wait epfd eventsPtr maxevents =>
    cases hs
    exact h.begin epfd eventsPtr maxevents
  | wake i =>
    obtain ⟨q, hq, rfl⟩ := Option.map_eq_some_iff.mp hs
    have herased : Inv { s with waiting := s.waiting.eraseIdx i } :=
      ⟨h.keyed, fun q hq => h.holds q (List.mem_of_mem_eraseIdx hq), h.reports⟩
    exact herased.wake (h.holds q (List.mem_of_getElem? hq))

/-- In undisturbed runs whatever was reported was registered when the call returned. -/
theorem reports_current (sock : SocketCalls) (args : List String) (env : List (String × String))
    (vfs : Vfs) (seed : RngSeed) (fs : HostFs)
    (h : Reaches (fun s a => EpollWaits.next s sock a) EpollWaits.Undisturbed
      (.start (.new args env vfs seed) fs) s) :
    ∀ rep ∈ s.reports, rep.Current := by
  have hinv : s.Inv := by
    refine h.invariant ?_ fun _ _ _ hinv hok hs => Inv.next sock hinv hok hs
    exact ⟨fun ep e hep => absurd hep (Registry.new_epoll args env vfs seed ep e),
      fun _ hq => (List.not_mem_nil hq).elim, fun _ hrep => (List.not_mem_nil hrep).elim⟩
  exact hinv.reports

-- ---------------------------------------------------------------------------
-- A call parked on standard input
-- ---------------------------------------------------------------------------

theorem snapshot_one (k : Kernel) (sides : Nat → SocketSide) (f : UInt32) (entry : EpollEntry) :
    snapshotReadiness k sides (HashMap.empty.insert f entry) =
      if computeRevents k sides entry.fd entry.events ≠ 0 then
        [(entry, computeRevents k sides entry.fd entry.events)] else [] := by
  have hentries : (HashMap.empty.insert f entry).entries = [(f, entry)] := rfl
  rw [snapshotReadiness, hentries, List.map_singleton, List.filter_singleton, Bool.cond_decide]

theorem packed_one {k : Kernel} (hs : guestSlice k.memory eventsPtr 12 = .ok old)
    (entry : EpollEntry) (revents : UInt32) :
    packed k eventsPtr 1 [(entry, revents)] = [(entry, revents)] := by
  have hlen : (le32 revents ++ toNeBytes entry.data).length = 12 := by
    rw [List.length_append, le32_length, toNeBytes, List.length_map, List.length_range]
  have hok : (guestSlice k.memory eventsPtr 12).isOk = true := by
    rw [hs]
    rfl
  obtain ⟨_, mem, -, -, hcopy⟩ := guestCopy_of_fits hok (le_of_eq (congrArg Nat.cast hlen))
  rw [hlen] at hcopy
  have hpack : packEvents k eventsPtr 1 [(entry, revents)] = .returns 1 (some (.owned mem)) := by
    have htake : [(entry, revents)].take 1 = [(entry, revents)] := rfl
    have htotal : (([(entry, revents)].length : Nat) : Int) * EPOLL_EVENT_SIZE = (12 : Nat) := rfl
    simp only [packEvents, htake, htotal, List.flatMap_cons, List.flatMap_nil, List.append_nil, hcopy]
    rfl
  rw [packed, hpack]
  rfl

def stdinWait (entry : EpollEntry) : EpollWaiting where
  epfd := 3
  eventsPtr := 100
  maxevents := 1
  entries := HashMap.empty.insert 0 entry
  cancel := 4

/-- An instance at descriptor 3 whose only registration is of standard input and no
events, with room for one event at 100. -/
structure Watches (p : Pollers) (entry : EpollEntry) : Prop where
  fd : entry.fd = 0
  events : entry.events = 0
  room : ∃ old, guestSlice p.world.kernel.memory 100 12 = .ok old
  registered : p.binding 3 =
    some (.epoll { entries := HashMap.empty.insert 0 entry, cancel := 4, selfEventFd := none })

theorem begin_parks {s : EpollWaits} (h : Watches s.pollers entry)
    (hin : s.pollers.binding 0 = some (.stdin p)) :
    s.begin 3 100 1 = { s with waiting := s.waiting ++ [stdinWait entry] } := by
  obtain ⟨old, hold⟩ := h.room
  have hep : u32Fd 3 = some 3 := by decide
  have hmax : ¬ (1 : Int) ≤ 0 := by decide
  have hsize : Int.bmod (1 * EPOLL_EVENT_SIZE) (2 ^ 64) = 12 := by decide
  have hquiet : computeRevents s.pollers.world.kernel s.pollers.sides entry.fd entry.events = 0 := by
    have hget : s.pollers.world.kernel.fds.table.get? 0 = some (.stdin p) := hin
    rw [h.fd, h.events, computeRevents, hget]
    exact if_neg fun hwants => hwants.1 (by decide)
  have hnone := (snapshot_one s.pollers.world.kernel s.pollers.sides 0 entry).trans
    (if_neg (not_not.mpr hquiet))
  have hbegun : epollBegin s.pollers.world.kernel s.pollers.sides 3 100 1 = .parks (stdinWait entry) := by
    simp only [epollBegin, hep, hmax, if_false, hsize, hold, FdTable.get_ok.mpr h.registered, hnone,
      Bool.false_eq_true, List.isEmpty_nil, Bool.not_true]
    rfl
  simp only [EpollWaits.begin, hbegun]

/-- Descriptor 0 is not bound when the call is woken, which its copy reports. -/
theorem wake_reports {s : EpollWaits} (hfd : entry.fd = 0)
    (hroom : ∃ old, guestSlice s.pollers.world.kernel.memory 100 12 = .ok old)
    (hclosed : s.pollers.binding 0 = none) :
    (s.wake (stdinWait entry)).reports =
      { registered := s.registeredAt 3, written := [(entry, EPOLLERR ||| EPOLLHUP)] } :: s.reports := by
  obtain ⟨old, hold⟩ := hroom
  have hgone : computeRevents s.pollers.world.kernel s.pollers.sides entry.fd entry.events =
      EPOLLERR ||| EPOLLHUP := by
    have hget : s.pollers.world.kernel.fds.table.get? 0 = none := hclosed
    rw [hfd, computeRevents, hget]
  have hready : snapshotReadiness s.pollers.world.kernel s.pollers.sides (stdinWait entry).entries =
      [(entry, EPOLLERR ||| EPOLLHUP)] := by
    refine (snapshot_one s.pollers.world.kernel s.pollers.sides 0 entry).trans ?_
    rw [hgone]
    exact if_pos (by decide)
  have hwritten := packed_one (k := s.pollers.world.kernel) hold entry (EPOLLERR ||| EPOLLHUP)
  simp only [EpollWaits.wake, hready, finish]
  exact congrArg (· :: s.reports) (congrArg (Report.mk (s.registeredAt 3)) hwritten)

def unwaited (p : Pollers) : EpollWaits := { pollers := p, waiting := [], reports := [] }

theorem next_ctl (s : EpollWaits) (epfd op fd eventPtr : Int) :
    s.next noSockets (.call (.epollCtl epfd op fd eventPtr)) = some { s with
      pollers := s.pollers.withKernel
        (Sys.epollCtl s.pollers.world.kernel s.pollers.sides epfd op fd eventPtr).2.1 } := rfl

theorem unwaited_ctl (p : Pollers) (epfd op fd eventPtr : Int) :
    (unwaited p).next noSockets (.call (.epollCtl epfd op fd eventPtr)) = some (unwaited
      (p.withKernel (Sys.epollCtl p.world.kernel p.sides epfd op fd eventPtr).2.1)) := rfl

theorem reaches_added {ok : EpollWaits → WaitAct → Prop} (hok : ∀ s a, s.waiting = [] → ok s a) :
    Reaches (fun s a => EpollWaits.next s noSockets a) ok (unwaited Registry.booted.pollers)
      (unwaited (Registry.added 0).pollers) := by
  let mapped : Pollers := { Registry.booted.pollers with world.kernel.memory := some (.owned .zeroPage) }
  have hmapped : Reaches (fun s a => EpollWaits.next s noSockets a) ok (unwaited Registry.booted.pollers)
      (unwaited mapped) :=
    .step (a := .call (.memory (some (.owned .zeroPage)))) .start (hok _ _ rfl) rfl
  have hwatching : Reaches (fun s a => EpollWaits.next s noSockets a) ok (unwaited Registry.booted.pollers)
      (unwaited Registry.watching.pollers) :=
    .step (a := .call .epollCreate1) hmapped (hok _ _ rfl) rfl
  exact .step hwatching (hok _ _ rfl) (unwaited_ctl Registry.watching.pollers 3 EPOLL_CTL_ADD 0 0)

theorem added_watches :
    ∃ entry, Watches (Registry.added 0).pollers entry ∧
      (Registry.added 0).pollers.binding 0 = some (.stdin ⟨0, 0⟩) := by
  have hf : u32Fd 0 = some 0 := by decide
  obtain ⟨entry, hfd, hevents, hinst, hmem, hother⟩ := Registry.added_registered hf
  refine ⟨entry, ⟨hfd, hevents, ⟨List.replicate 12 0, ?_⟩, hinst⟩, (hother 0 (by decide)).trans rfl⟩
  refine (congrArg (guestSlice · 100 12) hmem).trans ?_
  exact guestSlice_of_load (LinearMemory.zeroPage_load (by decide)) (le_refl 12)

theorem reaches_parked (ok : EpollWaits → WaitAct → Prop) (hok : ∀ s a, s.waiting = [] → ok s a) :
    ∃ s entry, Reaches (fun s a => EpollWaits.next s noSockets a) ok (unwaited Registry.booted.pollers) s ∧
      Watches s.pollers entry ∧ s.waiting = [stdinWait entry] ∧ s.reports = [] := by
  obtain ⟨entry, hwatches, hin⟩ := added_watches
  refine ⟨{ unwaited (Registry.added 0).pollers with waiting := [stdinWait entry] }, entry, ?_, hwatches,
    rfl, rfl⟩
  exact .step (a := .wait 3 100 1) (reaches_added hok) (hok _ _ rfl)
    (congrArg some (begin_parks hwatches hin))

theorem close_stdin (s : EpollWaits) :
    ∃ p, s.next noSockets (.call (.table (.close 0))) = some { s with pollers := p } ∧
      p.world.kernel.memory = s.pollers.world.kernel.memory ∧
      ∀ x, p.binding x = if x = 0 then none else s.pollers.binding x := by
  refine ⟨{ s.pollers with world.kernel.fds := (close s.pollers.world.kernel.fds 0).2 }, rfl, rfl,
    fun x => ?_⟩
  have hzero : u32Fd 0 = some 0 := by decide
  have hget := (close_cases (t := s.pollers.world.kernel.fds) 0).1 x
  cases hclose : s.pollers.world.kernel.fds.close 0 with
  | error e =>
    rw [hclose] at hget
    simp only [Pollers.binding, Sys.close, hzero, hclose]
    exact hget
  | ok t =>
    rw [hclose] at hget
    simp only [Pollers.binding, Sys.close, hzero, hclose]
    exact hget

theorem epollCtl_del {k : Kernel} (sides : Nat → SocketSide) (eventPtr : Int) (hep : u32Fd epfd = some ep)
    (hf : u32Fd fd = some f) (he : k.fds.table.get? ep = some (.epoll e))
    (hold : e.entries.get? f = some entry) :
    ∃ cells, Sys.epollCtl k sides epfd EPOLL_CTL_DEL fd eventPtr = (0, { k with
      fds.table := k.fds.table.insert ep (.epoll { e with entries := e.entries.erase f })
      cells }, true) := by
  have hdel : (BitVec.ofInt 32 EPOLL_CTL_DEL).toInt = EPOLL_CTL_DEL := by decide
  have hadd : ¬ (EPOLL_CTL_DEL = EPOLL_CTL_ADD ∨ EPOLL_CTL_DEL = EPOLL_CTL_MOD) := by decide
  have hcontains : e.entries.containsKey f = true := by rw [HashMap.containsKey, hold]; rfl
  simp only [Sys.epollCtl, hep, hf, FdTable.get_ok.mpr he, hdel, hadd, if_false, if_true, hcontains,
    Bool.not_true, Bool.false_eq_true]
  exact ⟨_, rfl⟩

theorem remove_stdin {s : EpollWaits} (h : Watches s.pollers entry) :
    ∃ p e, s.next noSockets (.call (.epollCtl 3 EPOLL_CTL_DEL 0 0)) = some { s with pollers := p } ∧
      p.world.kernel.memory = s.pollers.world.kernel.memory ∧
      p.binding 3 = some (.epoll e) ∧ e.entries.get? 0 = none := by
  have hep : u32Fd 3 = some 3 := by decide
  have hzero : u32Fd 0 = some 0 := by decide
  obtain ⟨cells, hctl⟩ := epollCtl_del s.pollers.sides 0 hep hzero h.registered
    (Registry.get?_one 0 entry)
  refine ⟨_, { entries := (HashMap.empty.insert 0 entry).erase 0, cancel := 4, selfEventFd := none },
    next_ctl s 3 EPOLL_CTL_DEL 0 0, ?_, ?_, (HashMap.get?_erase ..).trans (if_pos rfl)⟩
  · rw [hctl]
    rfl
  · rw [hctl]
    exact (HashMap.get?_insert ..).trans (if_pos rfl)

theorem reaches_wake {s : EpollWaits} {ok : EpollWaits → WaitAct → Prop}
    (hreach : Reaches (fun s a => EpollWaits.next s noSockets a) ok s₀ s) (hok : ok s (.wake 0))
    (h : s.waiting = [q]) :
    Reaches (fun s a => EpollWaits.next s noSockets a) ok s₀ ({ s with waiting := [] }.wake q) := by
  refine .step hreach hok ?_
  simp only [next, h]
  rfl

/-- Standard input is closed while the call is parked, which the call reports. -/
theorem reports_current_closed :
    ∃ s, Reaches (fun s a => EpollWaits.next s noSockets a) EpollWaits.Undisturbed
        (unwaited Registry.booted.pollers) s ∧
      s.reports ≠ [] ∧ ∀ rep ∈ s.reports, rep.Current := by
  have hidle (s : EpollWaits) (a : WaitAct) (h : s.waiting = []) : s.Undisturbed a := by
    cases a with
    | call a =>
      intro q hq
      rw [h] at hq
      cases hq
    | wait | wake => trivial
  obtain ⟨s, entry, hreach, hwatches, hwaiting, hreports⟩ := reaches_parked _ hidle
  obtain ⟨p, hclose, hmem, hget⟩ := close_stdin s
  have hquiet : s.Undisturbed (.call (.table (.close 0))) := by
    intro q hq
    rw [hwaiting] at hq
    cases List.mem_singleton.mp hq
    refine ⟨fun hmem => ?_, fun _ _ _ _ _ ha => ?_⟩
    · have htarget : (FdCall.close 0).target = some 3 := FdCall.target_of_replaced hmem
      revert htarget
      decide
    · cases ha
  have hclosed := Reaches.step hreach hquiet hclose
  have hwoken := reaches_wake hclosed trivial hwaiting
  refine ⟨_, hwoken, ?_, reports_current noSockets [] [] _ _ _ hwoken⟩
  rw [wake_reports hwatches.fd (by rw [hmem]; exact hwatches.room) ((hget 0).trans (if_pos rfl))]
  exact List.cons_ne_nil _ _

/-- Standard input is removed and then closed while the call is parked: the call still
reports it. -/
theorem reports_stale :
    ∃ s rep entry, Reaches (fun s a => EpollWaits.next s noSockets a) (fun _ _ => True)
        (unwaited Registry.booted.pollers) s ∧
      s.reports = [rep] ∧ rep.written = [(entry, EPOLLERR ||| EPOLLHUP)] ∧
      rep.registered.get? entry.fd = none ∧ ¬ rep.Current := by
  obtain ⟨s, entry, hreach, hwatches, hwaiting, hreports⟩ :=
    reaches_parked (fun _ _ => True) fun _ _ _ => trivial
  obtain ⟨removed, e, hdel, hmem, hinst, hgone⟩ := remove_stdin hwatches
  obtain ⟨p, hclose, hmem', hget⟩ := close_stdin { s with pollers := removed }
  have hclosed := Reaches.step (Reaches.step hreach trivial hdel) trivial hclose
  have hwoken := reaches_wake hclosed trivial hwaiting
  have hnone : e.entries.get? entry.fd = none := hwatches.fd ▸ hgone
  refine ⟨_, { registered := e.entries, written := [(entry, EPOLLERR ||| EPOLLHUP)] }, entry, hwoken, ?_, rfl,
    hnone, fun hcurrent => ?_⟩
  · refine (wake_reports hwatches.fd ?_ ((hget 0).trans (if_pos rfl))).trans ?_
    · rw [hmem', hmem]
      exact hwatches.room
    · rw [registeredAt_of_binding ((hget 3).trans hinst), hreports]
  · obtain ⟨_, hsome, -⟩ := hcurrent.each _ (List.mem_singleton_self _)
    cases hnone.symm.trans hsome

end EpollWaits

end EdgeLibos.Sys
