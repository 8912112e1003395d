import EdgeLibos.Sys.Poll
import EdgeLibos.Sys.Probe

/-!
# Waking a poller

A kernel with the calls that are parked on its descriptors. Calls that make files,
sockets and event counters are here with the resource they bind, and the socket calls
with the socket they leave; a `writev` is the writes of its loop.
-/

namespace EdgeLibos.Sys

open Errno Lib

/-- A call that is parked: whether it is a `poll` or a `ppoll`, what its descriptors were
bound to when it began, and what it subscribed to. -/
structure Parked where
  polls : Bool
  watched : List Resource
  wakes : List Nat

structure Pollers where
  world : World
  sides : Nat → SocketSide
  parked : List Parked

inductive PollAct
  | memory (m : Option MemoryKind)
  | table (c : FdCall)
  | openat (fp : FilePos) (cloexec : Bool)
  | socket (s : SocketInner) (hasStream cloexec : Bool)
  | socketCall (ref : Nat) (s : SocketInner) (hasStream : Bool)
  | eventfd2 (counter : UInt64) (nonblock cloexec : Bool)
  | pipe2 (fdarray flags : Int)
  | epollCreate1
  | epollCtl (epfd op fd eventPtr : Int)
  | read (fd buf len : Int)
  | write (fd buf len : Int)
  | poll (fdsPtr nfds timeoutMs : Int)
  | ppoll (fdsPtr nfds tsp : Int)
  | epollWait (epfd eventsPtr maxevents : Int)
  | epollPwait (epfd eventsPtr maxevents tsp : Int)
  | resume (i : Nat)

namespace Pollers

variable (s : Pollers)

def withKernel (k : Kernel) : Pollers := { s with world.kernel := k }

def bind (c : Cells) (r : Resource) (cloexec : Bool) : Pollers :=
  let (fd, fds) := s.world.kernel.fds.insert r
  let fds := if cloexec then fds.setCloexec fd true else fds
  s.withKernel { s.world.kernel with fds, cells := c }

def openat (fp : FilePos) (cloexec : Bool) : Pollers :=
  let (ref, files) := s.world.kernel.cells.files.alloc fp
  s.bind { s.world.kernel.cells with files } (.file ref) cloexec

def socket (inner : SocketInner) (hasStream cloexec : Bool) : Pollers :=
  let (ref, sockets) := s.world.kernel.cells.sockets.alloc inner
  let (notifyRead, c) := { s.world.kernel.cells with sockets }.newNotify
  let (notifyWrite, c) := c.newNotify
  { s.bind c (.socket ref) cloexec with
    sides := Function.update s.sides ref { notifyRead, notifyWrite, hasStream } }

def socketCall (ref : Nat) (inner : SocketInner) (hasStream : Bool) : Pollers :=
  { s with
    world := s.world.setSocket ref inner
    sides := Function.update s.sides ref { s.sides ref with hasStream } }

def eventfd2 (counter : UInt64) (nonblock cloexec : Bool) : Pollers :=
  let (notify, c) := s.world.kernel.cells.newNotify
  s.bind c (.eventFd { counter, notify, nonblock }) cloexec

def isSocket (fd : Int) : Bool :=
  (((u32Fd fd).bind s.world.kernel.fds.table.get?).bind Resource.socket?).isSome

def settle (polls : Bool) : Polled → Pollers
  | .returns _ memory => { s with world.kernel.memory := memory }
  | .parks watched wakes => { s with parked := { polls, watched, wakes } :: s.parked }

end Pollers

/-- On a socket, `read` and `write` are socket calls. -/
def Pollers.next (sock : SocketCalls) (s : Pollers) : PollAct → Option Pollers
  | .memory m => some { s with world.kernel.memory := m }
  | .table c =>
    match c with
    | .insert _ _ => none
    | c => (c.run s.world.kernel.fds).map fun (_, t) => { s with world.kernel.fds := t }
  | .openat fp cloexec => some (s.openat fp cloexec)
  | .socket inner hasStream cloexec => some (s.socket inner hasStream cloexec)
  | .socketCall ref inner hasStream => some (s.socketCall ref inner hasStream)
  | .eventfd2 counter nonblock cloexec => some (s.eventfd2 counter nonblock cloexec)
  | .pipe2 fdarray flags => some (s.withKernel (Sys.pipe2 s.world.kernel fdarray flags).2)
  | .epollCreate1 => some (s.withKernel (Sys.epollCreate1 s.world.kernel).2)
  | .epollCtl epfd op fd eventPtr =>
    some (s.withKernel (Sys.epollCtl s.world.kernel s.sides epfd op fd eventPtr).2.1)
  | .read fd buf len =>
    if s.isSocket fd then none else some { s with world := (Sys.read sock s.world fd buf len).2 }
  | .write fd buf len =>
    if s.isSocket fd then none else some { s with world := (Sys.write sock s.world fd buf len).2 }
  | .poll fdsPtr nfds timeoutMs =>
    some (s.settle true (Sys.poll s.world.kernel s.sides fdsPtr nfds timeoutMs))
  | .ppoll fdsPtr nfds tsp => some (s.settle true (Sys.ppoll s.world.kernel s.sides fdsPtr nfds tsp))
  | .epollWait epfd eventsPtr maxevents =>
    some (s.settle false (Sys.epollWait s.world.kernel s.sides epfd eventsPtr maxevents))
  | .epollPwait epfd eventsPtr maxevents tsp =>
    some (s.settle false (Sys.epollPwait s.world.kernel s.sides epfd eventsPtr maxevents tsp))
  | .resume i => some { s with parked := s.parked.eraseIdx i }

def Pollers.start (k : Kernel) (fs : HostFs) : Pollers :=
  { world := { kernel := k, fs }, sides := fun _ => default, parked := [] }

-- ---------------------------------------------------------------------------
-- Readable pipes
-- ---------------------------------------------------------------------------

def Readable (w : World) (pipe : Nat) : Prop :=
  (w.kernel.cells.pipes.read pipe).buf ≠ [] ∨ (w.kernel.cells.pipes.read pipe).closed = true

/-- The write fires something that the parked call subscribed to. -/
def WokenBy (s : Pollers) (fd buf len : Int) (q : Parked) : Prop :=
  ∃ n ∈ writeFires s.world fd buf len, n ∈ q.wakes

/-- The parked call is a poll and a write end of the pipe is among its descriptors. -/
def WatchesWriter (q : Parked) (pipe : Nat) : Prop :=
  q.polls = true ∧ ∃ w, Resource.pipeWrite w ∈ q.watched ∧ w.pipe = pipe

-- ---------------------------------------------------------------------------
-- What each Notify is for
-- ---------------------------------------------------------------------------

inductive Use
  | reader (pipe : Nat)
  | writer (pipe : Nat)
  | other
  deriving DecidableEq, Repr

/-- A resource's `Notify` objects are used for it. -/
def Uses (uses : List Use) (sides : Nat → SocketSide) : Resource → Prop
  | .stdin r | .pipeRead r => uses[r.notify]? = some (.reader r.pipe)
  | .stdout w | .stderr w | .pipeWrite w => uses[w.notify]? = some (.writer w.pipe)
  | .file _ => True
  | .socket ref =>
    uses[(sides ref).notifyRead]? = some .other ∧ uses[(sides ref).notifyWrite]? = some .other
  | .epoll e => uses[e.cancel]? = some .other ∧ ∀ p ∈ e.entries.entries, uses[p.2.wake]? = some .other
  | .eventFd e => uses[e.notify]? = some .other

/-- Only a poll with a write end is subscribed to a writer's `Notify`. -/
structure Parked.Sound (uses : List Use) (q : Parked) : Prop where
  wakes : ∀ n ∈ q.wakes, uses[n]? = some .other ∨ (∃ p, uses[n]? = some (.reader p)) ∨
    q.polls = true ∧ ∃ w, Resource.pipeWrite w ∈ q.watched ∧ uses[n]? = some (.writer w.pipe)
  writers : q.polls = true → ∀ w, Resource.pipeWrite w ∈ q.watched →
    w.notify ∈ q.wakes ∧ uses[w.notify]? = some (.writer w.pipe)

structure Wired (uses : List Use) (s : Pollers) : Prop where
  length : uses.length = s.world.kernel.cells.notifies
  bound : ∀ (n p : Nat), uses[n]? = some (.writer p) → p < s.world.kernel.cells.pipes.next
  one : ∀ (n n' p : Nat), uses[n]? = some (.writer p) → uses[n']? = some (.writer p) → n = n'
  table : AllBound (Uses uses s.sides) s.world.kernel.fds
  parked : ∀ q ∈ s.parked, q.Sound uses

variable {uses more : List Use} {sides : Nat → SocketSide} {r : Resource} {q : Parked} {s s' : Pollers}
  {n p : Nat}

theorem getElem?_append_uses (h : uses[n]? = some u) (more : List Use) : (uses ++ more)[n]? = some u := by
  obtain ⟨hlt, -⟩ := List.getElem?_eq_some_iff.mp h
  rw [List.getElem?_append_left hlt, h]

theorem Uses.append (h : Uses uses sides r) (more : List Use) : Uses (uses ++ more) sides r := by
  cases r with
  | file ref => trivial
  | socket ref => exact ⟨getElem?_append_uses h.1 more, getElem?_append_uses h.2 more⟩
  | epoll e => exact ⟨getElem?_append_uses h.1 more, fun p hp => getElem?_append_uses (h.2 p hp) more⟩
  | _ => exact getElem?_append_uses h more

theorem Parked.Sound.append (h : q.Sound uses) (more : List Use) : q.Sound (uses ++ more) := by
  constructor
  · intro n hn
    rcases h.wakes n hn with ho | ⟨p, hr⟩ | ⟨hp, w, hw, hu⟩
    · exact .inl (getElem?_append_uses ho more)
    · exact .inr (.inl ⟨p, getElem?_append_uses hr more⟩)
    · exact .inr (.inr ⟨hp, w, hw, getElem?_append_uses hu more⟩)
  · intro hp w hw
    obtain ⟨hmem, hu⟩ := h.writers hp w hw
    exact ⟨hmem, getElem?_append_uses hu more⟩

theorem writer_of_append (hother : ∀ u ∈ more, u = Use.other)
    (h : (uses ++ more)[n]? = some (.writer p)) : uses[n]? = some (.writer p) := by
  rw [List.getElem?_append] at h
  split at h
  · exact h
  · cases hother _ (List.mem_of_getElem? h)

theorem Wired.alloc (h : Wired uses s) (more : List Use) (hother : ∀ u ∈ more, u = Use.other)
    (hlen : s'.world.kernel.cells.notifies = s.world.kernel.cells.notifies + more.length)
    (hpipes : s'.world.kernel.cells.pipes.next = s.world.kernel.cells.pipes.next)
    (htable : AllBound (Uses (uses ++ more) s'.sides) s'.world.kernel.fds)
    (hparked : ∀ q ∈ s'.parked, q ∈ s.parked) : Wired (uses ++ more) s' where
  length := by rw [List.length_append, h.length, hlen]
  bound n p hn := hpipes ▸ h.bound n p (writer_of_append hother hn)
  one n n' p hn hn' := h.one n n' p (writer_of_append hother hn) (writer_of_append hother hn')
  table := htable
  parked q hq := (h.parked q (hparked q hq)).append more

theorem Wired.steady (h : Wired uses s)
    (hlen : s'.world.kernel.cells.notifies = s.world.kernel.cells.notifies)
    (hpipes : s'.world.kernel.cells.pipes.next = s.world.kernel.cells.pipes.next)
    (htable : AllBound (Uses uses s'.sides) s'.world.kernel.fds)
    (hparked : ∀ q ∈ s'.parked, q ∈ s.parked) : Wired uses s' := by
  have halloc := h.alloc [] (fun _ hu => by cases hu) hlen hpipes
    (by rwa [List.append_nil]) hparked
  rwa [List.append_nil] at halloc

theorem AllBound.append (h : AllBound (Uses uses sides) t) (more : List Use) :
    AllBound (Uses (uses ++ more) sides) t := fun fd r hr => (h fd r hr).append more

theorem AllBound.insert (h : AllBound P t) (hr : P r) : AllBound P (t.insert r).2 :=
  h.bind hr fun _ => HashMap.get?_insert ..

theorem AllBound.replace (h : AllBound P t) (hr : P r) :
    AllBound P { t with table := t.table.insert fd r } := h.bind hr fun _ => HashMap.get?_insert ..

theorem AllBound.bindNew (h : AllBound P s.world.kernel.fds) (hr : P r) (c : Cells) (cloexec : Bool) :
    AllBound P (s.bind c r cloexec).world.kernel.fds := by
  have hins := AllBound.insert h hr
  simp only [Pollers.bind, Pollers.withKernel]
  split
  · exact hins
  · exact hins

-- ---------------------------------------------------------------------------
-- Reads and writes
-- ---------------------------------------------------------------------------

theorem EventFdInner.read_notify (e : EventFdInner) (len : Nat) : (e.read len).2.notify = e.notify := by
  unfold EventFdInner.read
  split_ifs <;> rfl

theorem EventFdInner.write_notify (e : EventFdInner) (bytes : List UInt8) :
    (e.write bytes).2.notify = e.notify := by
  unfold EventFdInner.write
  split_ifs <;> rfl

/-- No `Notify` and no pipe is made, and only the value of an event counter changes in
the table. -/
structure Steady (w w' : World) : Prop where
  notifies : w'.kernel.cells.notifies = w.kernel.cells.notifies
  pipes : w'.kernel.cells.pipes.next = w.kernel.cells.pipes.next
  table : ∀ uses sides, AllBound (Uses uses sides) w.kernel.fds → AllBound (Uses uses sides) w'.kernel.fds

theorem Steady.setEventFd {w : World} {e e' : EventFdInner}
    (hget : w.kernel.fds.table.get? fd = some (.eventFd e)) (hnotify : e'.notify = e.notify) :
    Steady w (w.setEventFd fd e') := by
  refine ⟨rfl, rfl, fun uses sides h => ?_⟩
  have hold : Uses uses sides (.eventFd e) := h fd _ hget
  have hnew : Uses uses sides (.eventFd e') := by
    simp only [Uses] at hold ⊢
    rw [hnotify, hold]
  exact AllBound.replace h hnew

/-- In the table at most the value of one event counter changes. -/
inductive CounterStep (w w' : World) : Prop
  | same (hfds : w'.kernel.fds = w.kernel.fds)
  | counter (fd : UInt32) (e e' : EventFdInner) (he : w.kernel.fds.table.get? fd = some (.eventFd e))
      (hnotify : e'.notify = e.notify) (hfds : w'.kernel.fds = (w.setEventFd fd e').kernel.fds)

/-- What a `read` or a `write` leaves alone. -/
structure Counted (w w' : World) : Prop where
  notifies : w'.kernel.cells.notifies = w.kernel.cells.notifies
  pipes : w'.kernel.cells.pipes.next = w.kernel.cells.pipes.next
  table : CounterStep w w'

theorem Counted.refl (w : World) : Counted w w := ⟨rfl, rfl, .same rfl⟩

theorem Counted.steady {w w' : World} (h : Counted w w') : Steady w w' := by
  obtain ⟨hn, hp, ht⟩ := h
  cases ht with
  | same hfds => exact ⟨hn, hp, fun uses sides h => hfds ▸ h⟩
  | counter fd e e' he hnotify hfds =>
    exact ⟨hn, hp, fun uses sides h => hfds ▸ (Steady.setEventFd he hnotify).table uses sides h⟩

theorem readFrom_counted {w : World} (hget : w.kernel.fds.table.get? fd = some r)
    (h : readFrom w fd len r = some (out, w')) : Counted w w' := by
  cases r with
  | stdin p | pipeRead p | file ref =>
    cases h
    exact ⟨rfl, rfl, .same rfl⟩
  | eventFd e =>
    cases h
    exact ⟨rfl, rfl, .counter fd e _ hget (EventFdInner.read_notify e len) rfl⟩
  | socket ref => cases h
  | stdout p | stderr p | pipeWrite p | epoll e =>
    cases h
    exact .refl _

theorem writeTo_counted {w : World} (hget : w.kernel.fds.table.get? fd = some r)
    (h : writeTo w fd bytes r = some (value, w')) : Counted w w' := by
  cases r with
  | stdout p | stderr p | pipeWrite p | file ref =>
    cases h
    exact ⟨rfl, rfl, .same rfl⟩
  | eventFd e =>
    cases h
    exact ⟨rfl, rfl, .counter fd e _ hget (EventFdInner.write_notify e bytes) rfl⟩
  | socket ref => cases h
  | stdin p | pipeRead p | epoll e =>
    cases h
    exact .refl _

theorem readFrom_none {w : World} (h : readFrom w fd len r = none) : ∃ ref, r = .socket ref := by
  cases r with
  | socket ref => exact ⟨ref, rfl⟩
  | _ => cases h

theorem writeTo_none {w : World} (h : writeTo w fd bytes r = none) : ∃ ref, r = .socket ref := by
  cases r with
  | socket ref => exact ⟨ref, rfl⟩
  | _ => cases h

theorem not_socket (hfd : s.isSocket fd = false) (hf : u32Fd fd = some f)
    (hget : s.world.kernel.fds.table.get? f = some (.socket ref)) : False := by
  rw [Pollers.isSocket, hf, Option.bind_some, hget] at hfd
  cases hfd

theorem read_counted (sock : SocketCalls) (hfd : s.isSocket fd = false) (buf len : Int) :
    Counted s.world (read sock s.world fd buf len).2 := by
  unfold read
  split
  · exact .refl _
  · rename_i f hf
    split
    · exact .refl _
    · split
      · exact .refl _
      · split
        · exact .refl _
        · rename_i r hget
          have hget := FdTable.get_ok.mp hget
          split
          · rename_i hnone
            obtain ⟨ref, rfl⟩ := readFrom_none hnone
            exact (not_socket hfd hf hget).elim
          · rename_i out w hsome
            obtain ⟨hn, hp, ht⟩ := readFrom_counted hget hsome
            refine ⟨hn, hp, ?_⟩
            cases ht with
            | same hfds => exact .same hfds
            | counter fd e e' he hnotify hfds => exact .counter fd e e' he hnotify hfds

theorem write_counted (sock : SocketCalls) (hfd : s.isSocket fd = false) (buf len : Int) :
    Counted s.world (write sock s.world fd buf len).2 := by
  unfold write
  split
  · exact .refl _
  · rename_i f hf
    split
    · exact .refl _
    · split
      · exact .refl _
      · split
        · exact .refl _
        · rename_i r hget
          have hget := FdTable.get_ok.mp hget
          cases hto : writeTo s.world f _ r with
          | none =>
            obtain ⟨ref, rfl⟩ := writeTo_none hto
            exact (not_socket hfd hf hget).elim
          | some result => exact writeTo_counted hget hto

-- ---------------------------------------------------------------------------
-- Calls that park
-- ---------------------------------------------------------------------------

/-- What a poll subscribes to comes from the resources it watches. -/
theorem polls_sound {watched : List Resource} (h : ∀ r ∈ watched, Uses uses sides r) :
    Parked.Sound uses { polls := true, watched, wakes := watched.filterMap (wakeOf sides) } := by
  constructor
  · intro n hn
    obtain ⟨r, hr, hwake⟩ := List.mem_filterMap.mp hn
    have huse := h r hr
    cases r with
    | pipeRead p =>
      cases hwake
      exact .inr (.inl ⟨_, huse⟩)
    | pipeWrite w =>
      cases hwake
      exact .inr (.inr ⟨rfl, w, hr, huse⟩)
    | socket ref =>
      cases hwake
      exact .inl huse.1
    | _ => cases hwake
  · intro _ w hw
    exact ⟨List.mem_filterMap.mpr ⟨_, hw, rfl⟩, h _ hw⟩

theorem epoll_sound {watched : List Resource} {wakes : List Nat}
    (h : ∀ n ∈ wakes, uses[n]? = some .other) :
    Parked.Sound uses { polls := false, watched, wakes } where
  wakes n hn := .inl (h n hn)
  writers hp := by cases hp

/-- The outcome of a call that waits: a value, or a park that is sound. -/
def Polled.Sound (uses : List Use) (polls : Bool) : Polled → Prop
  | .returns _ _ => True
  | .parks watched wakes => Parked.Sound uses { polls, watched, wakes }

theorem Wired.settle (h : Wired uses s) (hp : Polled.Sound uses polls out) :
    Wired uses (s.settle polls out) := by
  cases out with
  | returns value memory => exact h.steady rfl rfl h.table fun _ hq => hq
  | parks watched wakes =>
    refine ⟨h.length, h.bound, h.one, h.table, fun q hq => ?_⟩
    rcases List.mem_cons.mp hq with rfl | hold
    · exact hp
    · exact h.parked q hold

theorem writeRevents_sound (k : Kernel) (fdsPtr : Int) (readiness : List UInt16) :
    Polled.Sound uses polls (writeRevents k fdsPtr readiness) := by
  unfold writeRevents
  dsimp only
  split
  · trivial
  · split <;> trivial

theorem poll_sound {k : Kernel} (h : AllBound (Uses uses sides) k.fds) (fdsPtr nfds timeoutMs : Int) :
    Polled.Sound uses true (poll k sides fdsPtr nfds timeoutMs) := by
  unfold poll
  split
  · trivial
  · split
    · trivial
    · split
      · trivial
      · split
        · trivial
        · dsimp only
          split
          · exact writeRevents_sound k fdsPtr _
          · refine polls_sound fun r hr => ?_
            obtain ⟨e, -, hbound⟩ := List.mem_filterMap.mp hr
            obtain ⟨fd, -, hget⟩ := Option.bind_eq_some_iff.mp hbound
            exact h fd r hget

theorem ppoll_sound {k : Kernel} (h : AllBound (Uses uses sides) k.fds) (fdsPtr nfds tsp : Int) :
    Polled.Sound uses true (ppoll k sides fdsPtr nfds tsp) := by
  unfold ppoll
  split
  · trivial
  · split
    · trivial
    · split
      · exact poll_sound h ..
      · split
        · trivial
        · split
          · trivial
          · exact poll_sound h ..

theorem packEvents_sound (k : Kernel) (eventsPtr : Int) (maxevents : Nat)
    (ready : List (EpollEntry × UInt32)) : Polled.Sound uses polls (packEvents k eventsPtr maxevents ready) := by
  unfold packEvents
  dsimp only
  split <;> trivial

theorem epollWait_sound {k : Kernel} (h : AllBound (Uses uses sides) k.fds)
    (epfd eventsPtr maxevents : Int) :
    Polled.Sound uses false (epollWait k sides epfd eventsPtr maxevents) := by
  unfold epollWait
  split
  · trivial
  · rename_i fd hfd
    split
    · trivial
    · split
      · trivial
      · split
        · trivial
        · rename_i e hget
          split
          · trivial
          · dsimp only
            split
            · exact packEvents_sound k eventsPtr _ _
            · obtain ⟨hcancel, hentries⟩ := h fd _ (FdTable.get_ok.mp hget)
              refine epoll_sound fun n hn => ?_
              rcases List.mem_append.mp hn with hw | hc
              · obtain ⟨entry, hmem, rfl⟩ := List.mem_map.mp (List.mem_of_mem_take hw)
                obtain ⟨p, hp, rfl⟩ := List.mem_map.mp hmem
                exact hentries p hp
              · obtain rfl := List.mem_singleton.mp hc
                exact hcancel
        · trivial

theorem epollPwait_sound {k : Kernel} (h : AllBound (Uses uses sides) k.fds)
    (epfd eventsPtr maxevents tsp : Int) :
    Polled.Sound uses false (epollPwait k sides epfd eventsPtr maxevents tsp) := by
  unfold epollPwait
  split
  · trivial
  · split
    · trivial
    · split
      · exact epollWait_sound h ..
      · split
        · trivial
        · split
          · trivial
          · exact epollWait_sound h ..

-- ---------------------------------------------------------------------------
-- Calls that make a Notify
-- ---------------------------------------------------------------------------

theorem writer_of_append_pipe (h : (uses ++ [.reader pipe, .writer pipe])[n]? = some (.writer p)) :
    uses[n]? = some (.writer p) ∨ (n = uses.length + 1 ∧ p = pipe) := by
  rw [List.getElem?_append] at h
  split at h
  · exact .inl h
  · rename_i hlt
    cases hk : n - uses.length with
    | zero =>
      rw [hk] at h
      cases h
    | succ k =>
      cases k with
      | zero =>
        rw [hk] at h
        cases h
        exact .inr ⟨by omega, rfl⟩
      | succ k =>
        rw [hk] at h
        cases h

theorem getElem?_new_use (uses more : List Use) (i : Nat) :
    (uses ++ more)[uses.length + i]? = more[i]? := by
  rw [List.getElem?_append_right (Nat.le_add_right ..), Nat.add_sub_cancel_left]

theorem Wired.newPipe (h : Wired uses s)
    (hlen : s'.world.kernel.cells.notifies = s.world.kernel.cells.notifies + 2)
    (hpipes : s'.world.kernel.cells.pipes.next = s.world.kernel.cells.pipes.next + 1)
    (htable : AllBound (Uses (uses ++ [.reader s.world.kernel.cells.pipes.next,
      .writer s.world.kernel.cells.pipes.next]) s'.sides) s'.world.kernel.fds)
    (hparked : s'.parked = s.parked) :
    Wired (uses ++ [.reader s.world.kernel.cells.pipes.next, .writer s.world.kernel.cells.pipes.next]) s' where
  length := by rw [List.length_append, h.length, hlen]; rfl
  bound n p hn := by
    rcases writer_of_append_pipe hn with hold | ⟨-, rfl⟩
    · have := h.bound n p hold
      omega
    · omega
  one n n' p hn hn' := by
    rcases writer_of_append_pipe hn with hold | ⟨hnew, rfl⟩
    · rcases writer_of_append_pipe hn' with hold' | ⟨-, rfl⟩
      · exact h.one n n' p hold hold'
      · exact absurd (h.bound n _ hold) (Nat.lt_irrefl _)
    · rcases writer_of_append_pipe hn' with hold' | ⟨hnew', -⟩
      · exact absurd (h.bound n' _ hold') (Nat.lt_irrefl _)
      · rw [hnew, hnew']
  table := htable
  parked q hq := (h.parked q (hparked ▸ hq)).append _

theorem Wired.pipe2 (h : Wired uses s) (fdarray flags : Int) :
    ∃ uses', Wired uses' (s.withKernel (Sys.pipe2 s.world.kernel fdarray flags).2) := by
  unfold Sys.pipe2
  split
  · exact ⟨uses, h⟩
  · refine ⟨_, h.newPipe ?_ ?_ ?_ rfl⟩
    · simp only [makePipe, Cells.newPipe, Cells.newNotify]
      split <;> split <;> rfl
    · simp only [makePipe, Cells.newPipe, Cells.newNotify]
      split <;> split <;> rfl
    · have hrd : Uses (uses ++ [.reader s.world.kernel.cells.pipes.next,
          .writer s.world.kernel.cells.pipes.next]) s.sides (.pipeRead (makePipe s.world.kernel.cells).1.1) := by
        have hnew := getElem?_new_use uses [.reader s.world.kernel.cells.pipes.next,
          .writer s.world.kernel.cells.pipes.next] 0
        rw [h.length] at hnew
        exact hnew
      have hwr : Uses (uses ++ [.reader s.world.kernel.cells.pipes.next,
          .writer s.world.kernel.cells.pipes.next]) s.sides (.pipeWrite (makePipe s.world.kernel.cells).1.2) := by
        have hnew := getElem?_new_use uses [.reader s.world.kernel.cells.pipes.next,
          .writer s.world.kernel.cells.pipes.next] 1
        rw [h.length] at hnew
        exact hnew
      have htable := AllBound.insert (AllBound.insert (AllBound.append h.table _) hrd) hwr
      simp only [Pollers.withKernel]
      split
      · exact htable
      · exact htable

theorem Wired.epollCreate1 (h : Wired uses s) :
    Wired (uses ++ [.other]) (s.withKernel (Sys.epollCreate1 s.world.kernel).2) := by
  refine h.alloc _ (by simp) rfl rfl ?_ fun _ hq => hq
  refine AllBound.insert (AllBound.append h.table _) ⟨?_, fun p hp => by cases hp⟩
  have hnew := getElem?_new_use uses [.other] 0
  rw [h.length] at hnew
  exact hnew

theorem Wired.eventfd2 (h : Wired uses s) (counter : UInt64) (nonblock cloexec : Bool) :
    Wired (uses ++ [.other]) (s.eventfd2 counter nonblock cloexec) := by
  refine h.alloc _ (by simp) rfl rfl ?_ fun _ hq => hq
  refine AllBound.bindNew (AllBound.append h.table _) ?_ _ _
  have hnew := getElem?_new_use uses [.other] 0
  rw [h.length] at hnew
  exact hnew

theorem AllBound.updateSide {side : SocketSide} (h : AllBound (Uses uses sides) t)
    (hread : uses[side.notifyRead]? = some .other) (hwrite : uses[side.notifyWrite]? = some .other)
    (ref : Nat) : AllBound (Uses uses (Function.update sides ref side)) t := by
  intro fd r hr
  have hold := h fd r hr
  cases r with
  | socket x =>
    simp only [Uses]
    by_cases hx : x = ref
    · subst hx
      rw [Function.update_self]
      exact ⟨hread, hwrite⟩
    · rw [Function.update_of_ne hx]
      exact hold
  | _ => exact hold

theorem Wired.socket (h : Wired uses s) (inner : SocketInner) (hasStream cloexec : Bool) :
    Wired (uses ++ [.other, .other]) (s.socket inner hasStream cloexec) := by
  have hread := getElem?_new_use uses [.other, .other] 0
  have hwrite := getElem?_new_use uses [.other, .other] 1
  rw [h.length] at hread hwrite
  refine h.alloc _ (by simp) rfl rfl ?_ fun _ hq => hq
  have htable : AllBound (Uses (uses ++ [.other, .other]) (s.socket inner hasStream cloexec).sides)
      s.world.kernel.fds := AllBound.updateSide (AllBound.append h.table _) hread hwrite _
  refine AllBound.bindNew htable ?_ _ _
  simp only [Uses, Pollers.socket]
  rw [show s.world.kernel.cells.sockets.next = (s.world.kernel.cells.sockets.alloc inner).1 from rfl,
    Function.update_self]
  exact ⟨hread, hwrite⟩

/-- The `Notify` objects of a socket never change: those of a cell that is not a bound
socket's are of no consequence. -/
theorem Wired.socketCall (h : Wired uses s) (ref : Nat) (inner : SocketInner) (hasStream : Bool) :
    Wired uses (s.socketCall ref inner hasStream) := by
  refine h.steady rfl rfl ?_ fun _ hq => hq
  intro fd r hr
  have hold := h.table fd r hr
  cases r with
  | socket x =>
    simp only [Uses, Pollers.socketCall]
    by_cases hx : x = ref
    · subst hx
      rw [Function.update_self]
      exact hold
    · rw [Function.update_of_ne hx]
      exact hold
  | _ => exact hold

theorem wakePrimitives_other (h : Wired uses s) (fd : UInt32) :
    ∃ more, (∀ u ∈ more, u = Use.other) ∧
      (wakePrimitives s.world.kernel s.sides fd).2.notifies = s.world.kernel.cells.notifies + more.length ∧
      (wakePrimitives s.world.kernel s.sides fd).2.pipes = s.world.kernel.cells.pipes ∧
      (uses ++ more)[(wakePrimitives s.world.kernel s.sides fd).1.1]? = some .other ∧
      (uses ++ more)[(wakePrimitives s.world.kernel s.sides fd).1.2]? = some .other := by
  unfold wakePrimitives
  split
  · rename_i ref hget
    obtain ⟨hread, hwrite⟩ := h.table fd _ hget
    exact ⟨[], by simp, rfl, rfl, getElem?_append_uses hread [], getElem?_append_uses hwrite []⟩
  · have hnew := getElem?_new_use uses [.other] 0
    rw [h.length] at hnew
    exact ⟨[.other], by simp, rfl, rfl, hnew, hnew⟩

theorem pickWake_other (hread : uses[wakes.1]? = some .other) (hwrite : uses[wakes.2]? = some .other)
    (hcancel : uses[cancel]? = some .other) : uses[pickWake events wakes cancel]? = some .other := by
  unfold pickWake
  split
  · exact hread
  · split
    · exact hwrite
    · exact hcancel

theorem Wired.epollCtl (h : Wired uses s) (epfd op fd eventPtr : Int) :
    ∃ uses', Wired uses' (s.withKernel (Sys.epollCtl s.world.kernel s.sides epfd op fd eventPtr).2.1) := by
  unfold Sys.epollCtl
  split
  · rename_i epfd fd hepfd hfd
    split
    · exact ⟨uses, h⟩
    · rename_i e hget
      obtain ⟨more, hmore, hlen, hpipes, hread, hwrite⟩ := wakePrimitives_other h fd
      have hold : Uses (uses ++ more) s.sides (.epoll e) := (h.table epfd _ (FdTable.get_ok.mp hget)).append more
      have htable := AllBound.append h.table more
      have hcells : Wired (uses ++ more)
          (s.withKernel { s.world.kernel with cells := (wakePrimitives s.world.kernel s.sides fd).2 }) :=
        h.alloc _ hmore hlen (congrArg Heap.next hpipes) htable fun _ hq => hq
      refine ⟨uses ++ more, ?_⟩
      dsimp only
      split
      · split
        · exact hcells
        · split
          · exact hcells
          · split
            · exact hcells
            · refine h.alloc _ hmore hlen (congrArg Heap.next hpipes) ?_ fun _ hq => hq
              refine AllBound.replace htable ⟨hold.1, fun p hp => ?_⟩
              rcases List.mem_cons.mp hp with rfl | hrest
              · exact pickWake_other hread hwrite hold.1
              · exact hold.2 p (HashMap.mem_erase.mp hrest).1
      · split
        · split
          · exact hcells
          · refine h.alloc _ hmore hlen (congrArg Heap.next hpipes) ?_ fun _ hq => hq
            refine AllBound.replace htable ⟨hold.1, fun p hp => ?_⟩
            exact hold.2 p (HashMap.mem_erase.mp hp).1
        · exact hcells
    · exact ⟨uses, h⟩
  · exact ⟨uses, h⟩

theorem Wired.ofSteady (h : Wired uses s) (hw : Steady s.world w') : Wired uses { s with world := w' } :=
  h.steady hw.notifies hw.pipes (hw.table _ _ h.table) fun _ hq => hq

theorem Wired.step (sock : SocketCalls) (h : Wired uses s) (hs : s.next sock a = some s') :
    ∃ uses', Wired uses' s' := by
  cases a with
  | memory m =>
    cases hs
    exact ⟨uses, h.steady rfl rfl h.table fun _ hq => hq⟩
  | table c =>
    unfold Pollers.next at hs
    dsimp only at hs
    split at hs
    · cases hs
    · rename_i c hnot
      obtain ⟨⟨value, t⟩, hrun, rfl⟩ := Option.map_eq_some_iff.mp hs
      have htable := AllBound.run h.table (fun r cloexec hc => (hnot r cloexec hc).elim) hrun
      exact ⟨uses, h.steady rfl rfl htable fun _ hq => hq⟩
  | openat fp cloexec =>
    cases hs
    exact ⟨uses, h.steady rfl rfl (AllBound.bindNew h.table (r := .file _) True.intro _ _) fun _ hq => hq⟩
  | socket inner hasStream cloexec =>
    cases hs
    exact ⟨_, h.socket inner hasStream cloexec⟩
  | socketCall ref inner hasStream =>
    cases hs
    exact ⟨_, h.socketCall ref inner hasStream⟩
  | eventfd2 counter nonblock cloexec =>
    cases hs
    exact ⟨_, h.eventfd2 counter nonblock cloexec⟩
  | pipe2 fdarray flags =>
    cases hs
    exact h.pipe2 fdarray flags
  | epollCreate1 =>
    cases hs
    exact ⟨_, h.epollCreate1⟩
  | epollCtl epfd op fd eventPtr =>
    cases hs
    exact h.epollCtl epfd op fd eventPtr
  | read fd buf len =>
    simp only [Pollers.next] at hs
    split at hs
    · cases hs
    · rename_i hfd
      cases hs
      exact ⟨uses, h.ofSteady (read_counted sock (by simpa using hfd) buf len).steady⟩
  | write fd buf len =>
    simp only [Pollers.next] at hs
    split at hs
    · cases hs
    · rename_i hfd
      cases hs
      exact ⟨uses, h.ofSteady (write_counted sock (by simpa using hfd) buf len).steady⟩
  | poll fdsPtr nfds timeoutMs =>
    cases hs
    exact ⟨uses, h.settle (poll_sound h.table ..)⟩
  | ppoll fdsPtr nfds tsp =>
    cases hs
    exact ⟨uses, h.settle (ppoll_sound h.table ..)⟩
  | epollWait epfd eventsPtr maxevents =>
    cases hs
    exact ⟨uses, h.settle (epollWait_sound h.table ..)⟩
  | epollPwait epfd eventsPtr maxevents tsp =>
    cases hs
    exact ⟨uses, h.settle (epollPwait_sound h.table ..)⟩
  | resume i =>
    cases hs
    exact ⟨uses, h.steady rfl rfl h.table fun _ hq => List.mem_of_mem_eraseIdx hq⟩

-- ---------------------------------------------------------------------------
-- Who is woken
-- ---------------------------------------------------------------------------

def Resource.writer? : Resource → Option PipeWrite
  | .stdout w | .stderr w | .pipeWrite w => some w
  | _ => none

theorem Uses.writer (h : Uses uses sides r) (hw : Resource.writer? r = some w) :
    uses[w.notify]? = some (.writer w.pipe) := by
  cases r with
  | stdout p =>
    cases hw
    exact h
  | stderr p =>
    cases hw
    exact h
  | pipeWrite p =>
    cases hw
    exact h
  | _ => cases hw

theorem writeTo_readable {w : World} (hto : writeTo w fd bytes r = some (value, w'))
    (hbefore : ¬ Readable w p) (hafter : Readable w' p) :
    ∃ wr, Resource.writer? r = some wr ∧ wr.pipe = p := by
  have hpipe : ∀ (wr : PipeWrite) pipe, w' = w.setPipe wr.pipe pipe → wr.pipe = p := by
    rintro wr pipe rfl
    by_contra hne
    refine hbefore ?_
    simpa only [Readable, World.setPipe, Heap.read_write_ne _ _ (Ne.symm hne)] using hafter
  cases r with
  | stdout wr =>
    cases hto
    exact ⟨wr, rfl, hpipe wr _ rfl⟩
  | stderr wr =>
    cases hto
    exact ⟨wr, rfl, hpipe wr _ rfl⟩
  | pipeWrite wr =>
    cases hto
    exact ⟨wr, rfl, hpipe wr _ rfl⟩
  | socket ref => cases hto
  | _ =>
    cases hto
    exact absurd hafter hbefore

/-- A write that makes a pipe readable goes through a write end of it and fires that
end's `Notify`. -/
theorem write_makes_readable (sock : SocketCalls) (hfd : s.isSocket fd = false)
    (hbefore : ¬ Readable s.world p) (hafter : Readable (write sock s.world fd buf len).2 p) :
    ∃ f r wr, s.world.kernel.fds.table.get? f = some r ∧ Resource.writer? r = some wr ∧ wr.pipe = p ∧
      writeFires s.world fd buf len = some wr.notify := by
  unfold write at hafter
  split at hafter
  · exact absurd hafter hbefore
  · rename_i f hf
    split at hafter
    · exact absurd hafter hbefore
    · rename_i bytes hslice
      split at hafter
      · exact absurd hafter hbefore
      · rename_i hlen
        split at hafter
        · exact absurd hafter hbefore
        · rename_i r hget
          have hget := FdTable.get_ok.mp hget
          cases hto : writeTo s.world f bytes r with
          | none =>
            obtain ⟨ref, rfl⟩ := writeTo_none hto
            exact (not_socket hfd hf hget).elim
          | some result =>
            rw [hto] at hafter
            obtain ⟨wr, hwr, rfl⟩ := writeTo_readable hto hbefore hafter
            have hempty : (s.world.kernel.cells.pipes.read wr.pipe).buf.isEmpty = true := by
              rw [List.isEmpty_iff]
              by_contra hne
              exact hbefore (.inl hne)
            refine ⟨f, r, wr, hget, hwr, rfl, ?_⟩
            unfold writeFires
            rw [hf, Option.bind_some, hget, hslice]
            cases r with
            | stdout p =>
              cases hwr
              exact if_pos ⟨hlen, hempty⟩
            | stderr p =>
              cases hwr
              exact if_pos ⟨hlen, hempty⟩
            | pipeWrite p =>
              cases hwr
              exact if_pos ⟨hlen, hempty⟩
            | _ => cases hwr

theorem Parked.Sound.subscribed_iff (h : q.Sound uses)
    (hone : ∀ (n n' p : Nat), uses[n]? = some (.writer p) → uses[n']? = some (.writer p) → n = n')
    (hn : uses[n]? = some (.writer p)) : n ∈ q.wakes ↔ WatchesWriter q p := by
  constructor
  · intro hmem
    rcases h.wakes n hmem with ho | ⟨p', hr⟩ | ⟨hpolls, w, hw, hu⟩
    · rw [hn] at ho
      cases ho
    · rw [hn] at hr
      cases hr
    · rw [hn] at hu
      cases hu
      exact ⟨hpolls, w, hw, rfl⟩
  · rintro ⟨hpolls, w, hw, rfl⟩
    obtain ⟨hmem, hu⟩ := h.writers hpolls w hw
    rw [hone n w.notify w.pipe hn hu]
    exact hmem

theorem wired_start (args : List String) (env : List (String × String)) (vfs : Vfs) (seed : RngSeed)
    (fs : HostFs) :
    Wired [.reader 0, .writer 0, .reader 1, .writer 1] (.start (.new args env vfs seed) fs) where
  length := rfl
  bound n p hn := by
    have hmem := List.mem_of_getElem? hn
    simp only [List.mem_cons, Use.writer.injEq, reduceCtorEq, List.not_mem_nil, or_false, false_or] at hmem
    rcases hmem with rfl | rfl
    · exact Nat.zero_lt_two
    · exact Nat.one_lt_two
  one n n' p hn hn' := by
    match n, n', hn, hn' with
    | 1, 1, _, _ => rfl
    | 3, 3, _, _ => rfl
    | 1, 3, h, h' => cases h; cases h'
    | 3, 1, h, h' => cases h; cases h'
  table fd r hr := by
    have hall : ∀ p ∈ (FdTable.withBufferedStdio .empty).1.table.entries,
        p.2 = .stdin ⟨0, 0⟩ ∨ p.2 = .stdout ⟨0, 1⟩ ∨ p.2 = .stderr ⟨1, 3⟩ := by decide
    rcases hall (fd, r) (HashMap.get?_eq_some_iff.mp hr) with h | h | h <;>
    · cases h
      rfl
  parked q hq := by cases hq

/-- In every state a guest can reach: a write that makes a watched pipe readable wakes a
parked call exactly when that call is a poll with a write end of the pipe among its
descriptors. -/
theorem woken_iff_watches_writer (sock : SocketCalls) (args : List String) (env : List (String × String))
    (vfs : Vfs) (seed : RngSeed) (fs : HostFs) {rd : PipeRead}
    (h : Reaches (Pollers.next sock) (fun _ _ => True) (.start (.new args env vfs seed) fs) s)
    (hq : q ∈ s.parked) (_hwatched : .pipeRead rd ∈ q.watched) (hbefore : ¬ Readable s.world rd.pipe)
    (hs : s.next sock (.write fd buf len) = some s') (hafter : Readable s'.world rd.pipe) :
    WokenBy s fd buf len q ↔ WatchesWriter q rd.pipe := by
  obtain ⟨uses, hwired⟩ : ∃ uses, Wired uses s := by
    apply h.invariant (I := fun s => ∃ uses, Wired uses s)
    · exact ⟨_, wired_start args env vfs seed fs⟩
    · rintro s a s' ⟨uses, hs⟩ - hnext
      exact hs.step sock hnext
  simp only [Pollers.next] at hs
  split at hs
  · cases hs
  · rename_i hfd
    cases hs
    obtain ⟨f, r, wr, hget, hwr, hpipe, hfires⟩ :=
      write_makes_readable sock (by simpa using hfd) hbefore hafter
    have huse := (hwired.table f r hget).writer hwr
    rw [hpipe] at huse
    rw [← (hwired.parked q hq).subscribed_iff hwired.one huse]
    simp only [WokenBy, hfires, Option.mem_some_iff, exists_eq_left']

-- ---------------------------------------------------------------------------
-- A poll on a new pipe
-- ---------------------------------------------------------------------------

def pipeKernel (memory : Option MemoryKind) : Kernel :=
  let k := Kernel.new [] [] { root := "/", cwd := "/" } (Vector.replicate 32 0)
  let ((rd, wr), cells) := makePipe k.cells
  { k with memory, cells, fds := ((k.fds.insert (.pipeRead rd)).2.insert (.pipeWrite wr)).2 }

def pipePollers (memory : Option MemoryKind) (parked : List Parked) : Pollers :=
  { world := { kernel := pipeKernel memory, fs := { contents := fun _ => none } }, sides := fun _ => default, parked }

theorem pipe2_ok {k : Kernel} (hslice : guestSlice k.memory fdarray 8 = .ok bytes)
    (hcopy : guestCopy k.memory fdarray 8 (le32 k.fds.nextFd ++ le32 (k.fds.nextFd + 1)) = .ok memory)
    (hflags : BitVec.ofInt 32 flags &&& O_NONBLOCK = 0) : (Sys.pipe2 k fdarray flags).2 =
      { k with
        memory
        cells := (makePipe k.cells).2
        fds := ((k.fds.insert (.pipeRead (makePipe k.cells).1.1)).2.insert
          (.pipeWrite (makePipe k.cells).1.2)).2 } := by
  simp only [Sys.pipe2, hslice, FdTable.insert, hcopy, hflags, ne_eq, not_true_eq_false, if_false]

theorem pipe2_new {m : LinearMemory} (h : 0 + 8 ≤ m.size) :
    ∃ m', (Sys.pipe2 { Kernel.new [] [] { root := "/", cwd := "/" } (Vector.replicate 32 0) with
      memory := some (.owned m) } 0 0).2 = pipeKernel m' := by
  have hslice : guestSlice (some (.owned m)) 0 8 = .ok _ :=
    guestSlice_of_load (k := 8) (LinearMemory.load_some h) (le_refl 8)
  obtain ⟨m', hcopy⟩ : ∃ m', guestCopy (some (.owned m)) 0 8 (le32 3 ++ le32 4) = .ok m' := by
    rw [guestCopy, if_neg (by decide)]
    exact ⟨_, dif_pos ⟨h, by decide⟩⟩
  exact ⟨m', pipe2_ok hslice hcopy (by decide)⟩

def pipePollfds : List UInt8 := [3, 0, 0, 0, 1, 0, 0, 0, 4, 0, 0, 0, 0, 0, 0, 0]

theorem pipePollfds_fits : 16 + pipePollfds.length ≤ LinearMemory.zeroPage.size := by
  rw [LinearMemory.zeroPage_size]
  decide

theorem pipe_unready (memory : Option MemoryKind) :
    pollOne (pipeKernel memory) (fun _ => default) 3 1 = 0 ∧
      pollOne (pipeKernel memory) (fun _ => default) 4 0 = 0 := by
  constructor
  · have hquiet : readyPipeRead 1 false = 0 := by decide
    exact hquiet
  · rfl

theorem poll_read_end {m : LinearMemory} (h : m.load 16 16 = some pipePollfds) :
    Sys.poll (pipeKernel (some (.owned m))) (fun _ => default) 16 1 (-1) =
      .parks [.pipeRead ⟨2, 4⟩] [4] := by
  have hslice : guestSlice (some (.owned m)) 16 (Int.bmod (1 * 8) (2 ^ 64)) = .ok (pipePollfds.take 8) :=
    guestSlice_of_load (k := 8) h (by decide)
  have hfds : pollfdsOf (pipePollfds.take 8) = [(3, 1)] := by decide
  unfold Sys.poll
  rw [if_neg (by decide), if_neg (by decide), if_neg (by decide)]
  simp only [show (pipeKernel (some (.owned m))).memory = some (.owned m) from rfl, hslice, hfds,
    List.map_cons, List.map_nil, (pipe_unready _).1]
  rfl

theorem poll_both_ends {m : LinearMemory} (h : m.load 16 16 = some pipePollfds) :
    Sys.poll (pipeKernel (some (.owned m))) (fun _ => default) 16 2 (-1) =
      .parks [.pipeRead ⟨2, 4⟩, .pipeWrite ⟨2, 5⟩] [4, 5] := by
  have hslice : guestSlice (some (.owned m)) 16 (Int.bmod (2 * 8) (2 ^ 64)) = .ok (pipePollfds.take 16) :=
    guestSlice_of_load (k := 16) h (by decide)
  have hfds : pollfdsOf (pipePollfds.take 16) = [(3, 1), (4, 0)] := by decide
  unfold Sys.poll
  rw [if_neg (by decide), if_neg (by decide), if_neg (by decide)]
  simp only [show (pipeKernel (some (.owned m))).memory = some (.owned m) from rfl, hslice, hfds,
    List.map_cons, List.map_nil, (pipe_unready _).1, (pipe_unready _).2]
  rfl

def pollMemory : LinearMemory := LinearMemory.zeroPage.write 16 pipePollfds pipePollfds_fits

theorem pollMemory_load : pollMemory.load 16 16 = some pipePollfds := LinearMemory.load_write pipePollfds_fits

theorem pollMemory_buffer : HasBuffer (some (.owned pollMemory)) := by
  refine ⟨_, rfl, ?_⟩
  rw [pollMemory, LinearMemory.write_size, LinearMemory.zeroPage_size]
  decide

theorem reaches_parked (sock : SocketCalls) {m : LinearMemory} {nfds : Int}
    (h : Sys.poll (pipeKernel (some (.owned m))) (fun _ => default) 16 nfds (-1) = .parks watched wakes) :
    Reaches (Pollers.next sock) (fun _ _ => True)
      (.start (.new [] [] { root := "/", cwd := "/" } (Vector.replicate 32 0)) { contents := fun _ => none })
      (pipePollers (some (.owned m)) [{ polls := true, watched, wakes }]) := by
  have hpage : 0 + 8 ≤ LinearMemory.zeroPage.size := by
    rw [LinearMemory.zeroPage_size]
    decide
  generalize LinearMemory.zeroPage = page at hpage
  obtain ⟨m', hpipe⟩ := pipe2_new hpage
  have hpiped : Reaches (Pollers.next sock) (fun _ _ => True)
      (.start (.new [] [] { root := "/", cwd := "/" } (Vector.replicate 32 0)) { contents := fun _ => none })
      (pipePollers m' []) := by
    refine .step (.step .start trivial (a := .memory (some (.owned page))) rfl) trivial (a := .pipe2 0 0) ?_
    exact congrArg (fun k => some (Pollers.withKernel (pipePollers m' []) k)) hpipe
  have hready : Reaches (Pollers.next sock) (fun _ _ => True) _ (pipePollers (some (.owned m)) []) :=
    hpiped.step trivial (a := .memory (some (.owned m))) rfl
  refine hready.step trivial (a := .poll 16 nfds (-1)) ?_
  exact congrArg (fun polled => some (Pollers.settle (pipePollers (some (.owned m)) []) true polled)) h

theorem write_pipe_end (sock : SocketCalls) (hb : HasBuffer memory) (parked : List Parked) :
    ∃ s', (pipePollers memory parked).next sock (.write 4 0 1) = some s' ∧ Readable s'.world 2 := by
  have hfd : (pipePollers memory parked).world.kernel.fds.table.get? 4 = some (.pipeWrite ⟨2, 5⟩) := rfl
  obtain ⟨b, hwrite⟩ := write_one sock (a := 4) rfl hb hfd
  refine ⟨_, rfl, .inl ?_⟩
  rw [hwrite _ rfl]
  exact List.cons_ne_nil b []

theorem pipe_empty (memory : Option MemoryKind) (parked : List Parked) :
    ¬ Readable (pipePollers memory parked).world 2 := by
  rintro (hbuf | hclosed)
  · exact hbuf rfl
  · exact Bool.false_ne_true hclosed

theorem write_pipe_fires (hb : HasBuffer memory) (parked : List Parked) :
    writeFires (pipePollers memory parked).world 4 0 1 = some 5 := by
  obtain ⟨b, hslice⟩ := hb.slice
  unfold writeFires
  rw [show (pipePollers memory parked).world.kernel.memory = memory from rfl, hslice]
  rfl

/-- A poll on both ends of a pipe is woken by a write. -/
theorem woken_iff_watches_writer_both : ∃ s s' q,
    Reaches (Pollers.next noSockets) (fun _ _ => True)
      (.start (.new [] [] { root := "/", cwd := "/" } (Vector.replicate 32 0)) { contents := fun _ => none })
      s ∧ q ∈ s.parked ∧ .pipeRead ⟨2, 4⟩ ∈ q.watched ∧ ¬ Readable s.world 2 ∧
      s.next noSockets (.write 4 0 1) = some s' ∧ Readable s'.world 2 ∧ WokenBy s 4 0 1 q := by
  have hreach := reaches_parked noSockets (poll_both_ends pollMemory_load)
  obtain ⟨s', hnext, hreadable⟩ := write_pipe_end noSockets pollMemory_buffer
    [{ polls := true, watched := [.pipeRead ⟨2, 4⟩, .pipeWrite ⟨2, 5⟩], wakes := [4, 5] }]
  have hq := List.mem_singleton_self (α := Parked)
    { polls := true, watched := [.pipeRead ⟨2, 4⟩, .pipeWrite ⟨2, 5⟩], wakes := [4, 5] }
  refine ⟨_, s', _, hreach, hq, List.mem_cons_self, pipe_empty _ _, hnext, hreadable, ?_⟩
  rw [woken_iff_watches_writer noSockets _ _ _ _ _ hreach hq
    (show Resource.pipeRead ⟨2, 4⟩ ∈ _ from List.mem_cons_self) (pipe_empty _ _) hnext hreadable]
  exact ⟨rfl, ⟨2, 5⟩, by decide, rfl⟩

/-- A poll on the read end alone is not, although the pipe is readable then. -/
theorem write_wakes_nobody : ∃ s s' q,
    Reaches (Pollers.next noSockets) (fun _ _ => True)
      (.start (.new [] [] { root := "/", cwd := "/" } (Vector.replicate 32 0)) { contents := fun _ => none })
      s ∧ q ∈ s.parked ∧ .pipeRead ⟨2, 4⟩ ∈ q.watched ∧ ¬ Readable s.world 2 ∧
      s.next noSockets (.write 4 0 1) = some s' ∧ Readable s'.world 2 ∧ ¬ WokenBy s 4 0 1 q := by
  have hreach := reaches_parked noSockets (poll_read_end pollMemory_load)
  obtain ⟨s', hnext, hreadable⟩ := write_pipe_end noSockets pollMemory_buffer
    [{ polls := true, watched := [.pipeRead ⟨2, 4⟩], wakes := [4] }]
  refine ⟨_, s', _, hreach, List.mem_singleton_self _, List.mem_singleton_self _, pipe_empty _ _, hnext,
    hreadable, ?_⟩
  rintro ⟨n, hfires, hwakes⟩
  obtain rfl := List.mem_singleton.mp hwakes
  rw [write_pipe_fires pollMemory_buffer] at hfires
  cases hfires

end EdgeLibos.Sys
