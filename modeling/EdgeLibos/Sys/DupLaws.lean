import EdgeLibos.Sys.Dup

/-!
# Duplicating a descriptor

What `dup`, `dup2`, `dup3` and `fcntl(F_DUPFD)` do to the whole table: a call that fails
changes nothing, one that succeeds gives the resource one more descriptor and leaves the
others alone, and either of the two descriptors can be closed without the other noticing.
The search for a free number goes wrong only where the last of all numbers comes into it.
-/

namespace EdgeLibos

open Errno Lib

namespace FdTable

variable {t t' : FdTable}

theorem getCloexec_setCloexec (t : FdTable) (fd x : UInt32) (on : Bool) :
    (t.setCloexec fd on).getCloexec x = if x = fd then on else t.getCloexec x := by
  unfold getCloexec setCloexec HashMap.containsKey
  cases on with
  | true =>
    simp only [if_true, HashMap.get?_insert]
    split <;> rfl
  | false =>
    simp only [Bool.false_eq_true, if_false, HashMap.get?_erase]
    split <;> rfl

theorem close_getCloexec (target : UInt32) (hx : x ≠ target) :
    ((t.close target).toOption.getD t).getCloexec x = t.getCloexec x := by
  unfold close
  split
  · simp only [Except.toOption, Option.getD_some, getCloexec, HashMap.containsKey, HashMap.get?_erase,
      if_neg hx]
  · rfl

end FdTable

namespace Sys

variable {t t' : FdTable}

-- ---------------------------------------------------------------------------
-- What a duplicating call does
-- ---------------------------------------------------------------------------

/-- `new` is one more descriptor of what `old` refers to, and nothing else has changed. -/
structure Duplicate (t : FdTable) (c : FdCall) (old new : UInt32) (t' : FdTable) : Prop where
  aliased : ∃ r, r.Shared ∧ t.table.get? old = some r ∧ t'.table.get? new = some r
  marked : t'.getCloexec new = c.wantsCloexec
  others : ∀ x ≠ new, t'.table.get? x = t.table.get? x ∧ t'.getCloexec x = t.getCloexec x
  number : new ∈ c.target ∨ c.target = none ∧ t.table.get? new = none

theorem firstFree_isSome (hle : low ≤ x) (hx : t.table.get? x = none) : ∃ fd, t.firstFree low = some fd := by
  induction low using FdTable.firstFree.induct t with
  | case1 low hb hmax =>
    have hxlt := x.toNat_lt
    rw [UInt32.le_iff_toNat_le] at hle
    obtain rfl : low = x := UInt32.toNat_inj.mp (by omega)
    rw [HashMap.containsKey, hx] at hb
    cases hb
  | case2 low hb hmax ih =>
    rw [FdTable.firstFree, if_pos hb, if_neg hmax]
    refine ih ?_
    have hne : low.toNat ≠ x.toNat := by
      intro he
      obtain rfl := UInt32.toNat_inj.mp he
      rw [HashMap.containsKey, hx] at hb
      cases hb
    have hsucc : (low + 1).toNat = low.toNat + 1 := FdTable.toNat_succ hmax
    rw [UInt32.le_iff_toNat_le] at hle ⊢
    omega
  | case3 low hb =>
    rw [FdTable.firstFree, if_neg hb]
    exact ⟨low, rfl⟩

theorem Duplicate.ofBind {u : FdTable} (hr : t.cloned old = .ok r)
    (hothers : ∀ x ≠ new, u.table.get? x = t.table.get? x ∧ u.getCloexec x = t.getCloexec x)
    (hnumber : new ∈ c.target ∨ c.target = none ∧ t.table.get? new = none) :
    Duplicate t c old new ((bindFree u new r).setCloexec new c.wantsCloexec) := by
  obtain ⟨r', hr', hget, hshared⟩ | hr' := t.cloned_cases old
  · obtain rfl := Except.ok.inj (hr.symm.trans hr')
    refine ⟨⟨r, hshared, hget, ?_⟩, ?_, fun x hx => ⟨?_, ?_⟩, hnumber⟩
    · rw [setCloexec_table, bindFree, HashMap.get?_insert, if_pos rfl]
    · rw [FdTable.getCloexec_setCloexec, if_pos rfl]
    · rw [setCloexec_table, bindFree, HashMap.get?_insert, if_neg hx, (hothers x hx).1]
    · rw [FdTable.getCloexec_setCloexec, if_neg hx]
      exact (hothers x hx).2
  · cases hr.symm.trans hr'

theorem Duplicate.ofSearch (hr : t.cloned old = .ok r) (hsearch : c.searches = true)
    (hfd : t.firstFree low = some fd) :
    Duplicate t c old fd ((bindFree t fd r).setCloexec fd c.wantsCloexec) := by
  have hnone : c.target = none := by
    cases c <;> first | rfl | cases hsearch
  exact .ofBind hr (fun _ _ => ⟨rfl, rfl⟩) (.inr ⟨hnone, (firstFree_some hfd).1⟩)

theorem Duplicate.ofNamed (hr : t.cloned old = .ok r) (hnew : c.target = some new) :
    Duplicate t c old new
      ((bindFree ((t.close new).toOption.getD t) new r).setCloexec new c.wantsCloexec) := by
  refine .ofBind hr (fun x hx => ⟨?_, FdTable.close_getCloexec new hx⟩) (.inl hnew)
  rw [(close_cases new).1, if_neg hx]

-- ---------------------------------------------------------------------------
-- Calls that see one descriptor
-- ---------------------------------------------------------------------------

def SameAt (fd : UInt32) (w w' : World) : Prop :=
  ∃ t : FdTable, t.table.get? fd = w.kernel.fds.table.get? fd ∧ w' = { w with kernel.fds := t }

/-- Two calls on `fd` give the same and leave worlds that it cannot tell apart. -/
def Alike (fd : UInt32) (r r' : Int × World) : Prop := r'.1 = r.1 ∧ SameAt fd r.2 r'.2

/-- The socket calls look up no descriptor but the one they are given. -/
structure SocketCalls.Local (sock : SocketCalls) : Prop where
  recvfrom : u32Fd a = some fd → SameAt fd w w' →
    Alike fd (sock.recvfrom w a buf len) (sock.recvfrom w' a buf len)
  sendto : u32Fd a = some fd → SameAt fd w w' →
    Alike fd (sock.sendto w a buf len) (sock.sendto w' a buf len)

def Call.On (fd : UInt32) : Call → Prop
  | .store _ _ => True
  | .read a _ _ | .write a _ _ | .lseek a _ _ | .setfl a _ => u32Fd a = some fd

section
variable {w w' : World} {sock : SocketCalls}

theorem get_congr (h : t'.table.get? fd = t.table.get? fd) : t'.get fd = t.get fd := by
  rw [FdTable.get, FdTable.get, h]

theorem SameAt.setEventFd (h : SameAt fd w w') (e : EventFdInner) :
    SameAt fd (w.setEventFd fd e) (w'.setEventFd fd e) := by
  obtain ⟨t, ht, rfl⟩ := h
  refine ⟨_, ?_, rfl⟩
  simp only [World.setEventFd, HashMap.get?_insert, if_true]

/-- A socket leaves the reading to its own call. -/
theorem SameAt.readFrom (h : SameAt fd w w') (len : Nat) (r : Resource) :
    (readFrom w fd len r = none ∧ readFrom w' fd len r = none) ∨
      ∃ out u u', readFrom w fd len r = some (out, u) ∧ readFrom w' fd len r = some (out, u') ∧
        SameAt fd u u' := by
  cases r with
  | socket ref => exact .inl ⟨rfl, rfl⟩
  | eventFd e => exact .inr ⟨_, _, _, rfl, rfl, h.setEventFd _⟩
  | stdout p | stderr p | pipeWrite p | epoll e => exact .inr ⟨_, _, _, rfl, rfl, h⟩
  | stdin r | pipeRead r | file ref =>
    obtain ⟨t, ht, rfl⟩ := h
    exact .inr ⟨_, _, _, rfl, rfl, t, ht, rfl⟩

theorem SameAt.read (hs : sock.Local) (h : SameAt fd w w') (ha : u32Fd a = some fd) (buf len : Int) :
    Alike fd (read sock w a buf len) (read sock w' a buf len) := by
  obtain ⟨t, ht, hw'⟩ := id h
  have hget : w'.kernel.fds.get fd = w.kernel.fds.get fd := by
    rw [hw']
    exact get_congr ht
  have hmemory : w'.kernel.memory = w.kernel.memory := by rw [hw']
  simp only [Sys.read, ha, hmemory, hget]
  cases guestSlice w.kernel.memory buf len with
  | error e => exact ⟨rfl, h⟩
  | ok old =>
    simp only
    split
    · exact ⟨rfl, h⟩
    · cases w.kernel.fds.get fd with
      | error e => exact ⟨rfl, h⟩
      | ok r =>
        rcases h.readFrom len.toNat r with ⟨hr, hr'⟩ | ⟨out, u, u', hr, hr', t', ht', rfl⟩
        · simp only [hr, hr']
          exact hs.recvfrom ha h
        · simp only [hr, hr']
          exact ⟨rfl, t', ht', rfl⟩

theorem SameAt.writeTo (h : SameAt fd w w') (bytes : List UInt8) (r : Resource) :
    (writeTo w fd bytes r = none ∧ writeTo w' fd bytes r = none) ∨
      ∃ n u u', writeTo w fd bytes r = some (n, u) ∧ writeTo w' fd bytes r = some (n, u') ∧
        SameAt fd u u' := by
  cases r with
  | socket ref => exact .inl ⟨rfl, rfl⟩
  | eventFd e => exact .inr ⟨_, _, _, rfl, rfl, h.setEventFd _⟩
  | stdin r | pipeRead r | epoll e => exact .inr ⟨_, _, _, rfl, rfl, h⟩
  | stdout p | stderr p | pipeWrite p | file ref =>
    obtain ⟨t, ht, rfl⟩ := h
    exact .inr ⟨_, _, _, rfl, rfl, t, ht, rfl⟩

theorem SameAt.write (hs : sock.Local) (h : SameAt fd w w') (ha : u32Fd a = some fd) (buf len : Int) :
    Alike fd (write sock w a buf len) (write sock w' a buf len) := by
  obtain ⟨t, ht, hw'⟩ := id h
  have hget : w'.kernel.fds.get fd = w.kernel.fds.get fd := by
    rw [hw']
    exact get_congr ht
  have hmemory : w'.kernel.memory = w.kernel.memory := by rw [hw']
  simp only [Sys.write, ha, hmemory, hget]
  cases guestSlice w.kernel.memory buf len with
  | error e => exact ⟨rfl, h⟩
  | ok bytes =>
    simp only
    split
    · exact ⟨rfl, h⟩
    · cases w.kernel.fds.get fd with
      | error e => exact ⟨rfl, h⟩
      | ok r =>
        rcases h.writeTo bytes r with ⟨hr, hr'⟩ | ⟨n, u, u', hr, hr', hsame⟩
        · simp only [hr, hr', Option.getD_none]
          exact hs.sendto ha h
        · simp only [hr, hr', Option.getD_some]
          exact ⟨rfl, hsame⟩

theorem SameAt.lseek (h : SameAt fd w w') (ha : u32Fd a = some fd) (offset whence : Int) :
    Alike fd (lseek w a offset whence) (lseek w' a offset whence) := by
  obtain ⟨t, ht, rfl⟩ := id h
  simp only [Sys.lseek, ha, get_congr ht]
  cases w.kernel.fds.get fd with
  | error e => exact ⟨rfl, h⟩
  | ok r =>
    cases r with
    | file ref => exact ⟨rfl, t, ht, rfl⟩
    | _ => exact ⟨rfl, h⟩

theorem SameAt.setfl (h : SameAt fd w w') (ha : u32Fd a = some fd) (arg : Int) :
    Alike fd (fcntlSetfl w a arg) (fcntlSetfl w' a arg) := by
  obtain ⟨t, ht, rfl⟩ := id h
  simp only [fcntlSetfl, ha, get_congr ht]
  cases w.kernel.fds.get fd with
  | error e => exact ⟨rfl, h⟩
  | ok r =>
    cases r with
    | file | epoll | eventFd => exact ⟨rfl, h⟩
    | _ => exact ⟨rfl, t, ht, rfl⟩

theorem SameAt.step (hs : sock.Local) (h : SameAt fd w w') (hc : c.On fd) :
    Alike fd (step sock w c) (step sock w' c) := by
  cases c with
  | store ptr bytes =>
    obtain ⟨t, ht, rfl⟩ := h
    exact ⟨rfl, t, ht, rfl⟩
  | read a buf len => exact h.read hs hc buf len
  | write a buf len => exact h.write hs hc buf len
  | lseek a offset whence => exact h.lseek hc offset whence
  | setfl a arg => exact h.setfl hc arg

/-- No sequence of calls on `fd` can tell the two worlds apart. -/
theorem SameAt.observe (hs : sock.Local) (h : SameAt fd w w') (hc : ∀ c ∈ calls, Call.On fd c) :
    observe sock w' calls = observe sock w calls := by
  have hrun : (run sock w' calls).1 = (run sock w calls).1 ∧
      SameAt fd (run sock w calls).2 (run sock w' calls).2 := by
    induction calls generalizing w w' with
    | nil => exact ⟨rfl, h⟩
    | cons c rest ih =>
      obtain ⟨hvalue, hsame⟩ := h.step hs (hc c List.mem_cons_self)
      obtain ⟨hvalues, hend⟩ := ih hsame fun c hc' => hc c (List.mem_cons_of_mem _ hc')
      refine ⟨?_, hend⟩
      simp only [run, hvalue, hvalues]
  obtain ⟨hvalues, t, -, hend⟩ := hrun
  simp only [Sys.observe, hvalues, hend]

end

-- ---------------------------------------------------------------------------
-- The frame of a duplicating call
-- ---------------------------------------------------------------------------

/-- Closing `gone` takes nothing from `fd`: it stays bound and marked as it was, and no
sequence of calls on it notices. -/
structure Undisturbed (t : FdTable) (gone fd : UInt32) : Prop where
  bound : (close t gone.toNat).2.table.get? fd = t.table.get? fd
  marked : (close t gone.toNat).2.getCloexec fd = t.getCloexec fd
  unseen : ∀ sock : SocketCalls, sock.Local → ∀ w : World, w.kernel.fds = t →
    ∀ calls, (∀ c ∈ calls, Call.On fd c) →
      observe sock { w with kernel.fds := (close t gone.toNat).2 } calls = observe sock w calls

theorem close_snd (t : FdTable) (fd : UInt32) :
    (close t fd.toNat).2 = (t.close fd).toOption.getD t := by
  rw [close, u32Fd_toNat]
  simp only
  cases t.close fd <;> rfl

theorem undisturbed (t : FdTable) (hne : fd ≠ gone) : Undisturbed t gone fd := by
  have hbound : (close t gone.toNat).2.table.get? fd = t.table.get? fd := by
    rw [close_snd, (close_cases gone).1, if_neg hne]
  refine ⟨hbound, ?_, ?_⟩
  · rw [close_snd]
    exact FdTable.close_getCloexec gone hne
  · rintro sock hs w rfl calls hcalls
    exact SameAt.observe hs ⟨_, hbound, rfl⟩ hcalls

theorem searched_some (hlow : ∀ fd r, t.table.get? fd = some r → fd.toNat < 2 ^ 31)
    (hr : t.table.get? old = some r)
    (hmin : low.toNat ≤ old.toNat + 1 ∨ low.toNat < 2 ^ 31) : ∃ fd, t.firstFree low = some fd := by
  have hold := hlow old r hr
  have hfree : t.table.get? 2147483648 = none := by
    cases hget : t.table.get? 2147483648 with
    | none => rfl
    | some r' => exact absurd (hlow _ _ hget) (by decide)
  refine firstFree_isSome ?_ hfree
  rw [UInt32.le_iff_toNat_le]
  show low.toNat ≤ 2147483648
  omega

/-- In a table of descriptors below 2³¹ every duplicating call returns. One that fails
leaves the table as it was; one that succeeds makes a duplicate, and of the two
descriptors either can be closed. -/
theorem dup_frame (hlow : ∀ fd r, t.table.get? fd = some r → fd.toNat < 2 ^ 31)
    (hc : c.source = some oldfd) :
    ∃ n t', FdCall.run t c = some (n, t') ∧ (n < 0 → t' = t) ∧
      (0 ≤ n → n ≠ oldfd → ∃ old new, u32Fd oldfd = some old ∧ u32Fd n = some new ∧
        Duplicate t c old new t' ∧ Undisturbed t' old new ∧ Undisturbed t' new old) := by
  cases dup_cases t hc with
  | refused e he hrun => exact ⟨e, t, hrun, fun _ => rfl, fun hpos => absurd he (Int.not_lt.mpr hpos)⟩
  | itself _ hrun => exact ⟨oldfd, t, hrun, fun _ => rfl, fun _ hne => absurd rfl hne⟩
  | named old new r hold hr hnew hne hrun =>
    refine ⟨_, _, hrun, fun hneg => absurd hneg (by omega), fun _ _ => ?_⟩
    exact ⟨old, new, hold, u32Fd_toNat new, .ofNamed hr hnew, undisturbed _ hne.symm, undisturbed _ hne⟩
  | searched old r hold hr hsearch hmin hrun =>
    obtain ⟨r', hr', hget, -⟩ | hr' := t.cloned_cases old
    · obtain ⟨fd, hfd⟩ := searched_some hlow hget hmin
      have hne : old ≠ fd := by
        rintro rfl
        exact nomatch hget.symm.trans (firstFree_some hfd).1
      rw [hfd] at hrun
      refine ⟨_, _, hrun, fun hneg => absurd hneg (Int.not_lt.mpr (Int.natCast_nonneg _)), fun _ _ => ?_⟩
      exact ⟨old, fd, hold, u32Fd_toNat fd, .ofSearch hr hsearch hfd, undisturbed _ hne.symm,
        undisturbed _ hne⟩
    · cases hr.symm.trans hr'

theorem freshFds_below : ∀ fd r, freshFds.table.get? fd = some r → fd.toNat < 2 ^ 31 := by
  intro fd r hr
  have hall : ∀ p ∈ freshFds.table.entries, p.1.toNat < 2 ^ 31 := by decide
  exact hall (fd, r) (HashMap.get?_eq_some_iff.mp hr)

/-- Standard input to number 1000, to be closed on exec. -/
theorem dup_frame_fresh :
    ∃ n t', FdCall.run freshFds (.dup3 0 1000 0o2000000) = some (n, t') ∧ (n < 0 → t' = freshFds) ∧
      (0 ≤ n → n ≠ 0 → ∃ old new, u32Fd 0 = some old ∧ u32Fd n = some new ∧
        Duplicate freshFds (.dup3 0 1000 0o2000000) old new t' ∧ Undisturbed t' old new ∧
        Undisturbed t' new old) :=
  dup_frame freshFds_below rfl

-- ---------------------------------------------------------------------------
-- The least free number
-- ---------------------------------------------------------------------------

def FreeFrom (t : FdTable) (min : Nat) : Set UInt32 :=
  fun fd => min ≤ fd.toNat ∧ t.table.get? fd = none

/-- What a search from `min` has to do: take the least free descriptor and no other, and
keep the next number above it; where there is none, fail. -/
structure LeastFreeLaw (t : FdTable) (min : Nat) (r : Resource) (res : Option (Int × FdTable)) : Prop where
  found : (FreeFrom t min).Nonempty → ∃ fd t', res = some ((fd.toNat : Int), t') ∧
    fd ∈ FreeFrom t min ∧ (∀ y ∈ FreeFrom t min, fd ≤ y) ∧
    (∀ x, t'.table.get? x = if x = fd then some r else t.table.get? x) ∧ fd < t'.nextFd
  full : FreeFrom t min = ∅ → ∃ e, e < 0 ∧ res = some (e, t)

def returned (mark : UInt32 → FdTable → FdTable) (res : Option (UInt32 × FdTable)) :
    Option (Int × FdTable) :=
  res.map fun x => ((x.1.toNat : Int), mark x.1 x.2)

theorem returned_nonneg (h : returned mark res = some (e, t)) : 0 ≤ e := by
  obtain ⟨x, -, hx⟩ := Option.map_eq_some_iff.mp h
  cases hx
  exact Int.natCast_nonneg _

theorem lt_max_of_lt_bump (h : fd < bump t fd) : fd < maxFd := by
  have hle : fd.toNat ≤ maxFd.toNat := Nat.le_of_lt_succ fd.toNat_lt
  rw [UInt32.lt_iff_toNat_lt]
  refine Nat.lt_of_le_of_ne hle fun hmax => ?_
  obtain rfl := UInt32.toNat_inj.mp hmax
  have hge : maxFd ≥ t.nextFd := UInt32.le_iff_toNat_le.mpr (Nat.le_of_lt_succ t.nextFd.toNat_lt)
  rw [bump, if_pos hge] at h
  exact absurd h (by decide)

theorem leastFreeLaw_iff (t : FdTable) (low : UInt32) (r : Resource) {mark : UInt32 → FdTable → FdTable}
    (hmark : ∀ fd u, (mark fd u).table = u.table ∧ (mark fd u).nextFd = u.nextFd) :
    LeastFreeLaw t low.toNat r (returned mark (t.insertAtLeast low r)) ↔ RoomFrom t low := by
  constructor
  · intro h
    by_cases hempty : FreeFrom t low.toNat = ∅
    · obtain ⟨e, he, hres⟩ := h.full hempty
      exact absurd (returned_nonneg hres) (Int.not_le.mpr he)
    · obtain ⟨fd, t', hres, ⟨hmin, hfree⟩, -, -, hnext⟩ := h.found (Set.nonempty_iff_ne_empty.mpr hempty)
      refine ⟨fd, UInt32.le_iff_toNat_le.mpr hmin, ?_, hfree⟩
      rw [insertAtLeast_eq] at hres
      obtain ⟨⟨x, u⟩, hx, hpair⟩ := Option.map_eq_some_iff.mp hres
      obtain ⟨y, -, hy⟩ := Option.map_eq_some_iff.mp hx
      cases hy
      obtain ⟨hfd, ht'⟩ := Prod.mk.inj hpair
      obtain rfl := UInt32.toNat_inj.mp (Int.ofNat_inj.mp hfd)
      rw [← ht', (hmark _ _).2] at hnext
      exact lt_max_of_lt_bump hnext
  · intro hroom
    obtain ⟨y, hmin, hlt, hfree⟩ := id hroom
    obtain ⟨fd, hfd⟩ := firstFree_isSome hmin hfree
    obtain ⟨hunbound, hle, hleast⟩ := firstFree_some hfd
    have hmem : y ∈ FreeFrom t low.toNat := ⟨UInt32.le_iff_toNat_le.mp hmin, hfree⟩
    rw [insertAtLeast_eq, hfd]
    refine ⟨fun _ => ⟨fd, _, rfl, ⟨UInt32.le_iff_toNat_le.mp hle, hunbound⟩, ?_, ?_, ?_⟩, ?_⟩
    · exact fun y hy => hleast y (UInt32.le_iff_toNat_le.mpr hy.1) hy.2
    · intro x
      rw [(hmark _ _).1]
      exact HashMap.get?_insert ..
    · rw [(hmark _ _).2]
      exact lt_bump (hroom.ne_max hfd)
    · intro hempty
      exact absurd hmem (hempty ▸ Set.notMem_empty y)

/-- From the last number on `dup` starts over at 0 and never fails. -/
theorem not_leastFreeLaw_max (t : FdTable) (low : UInt32) (r : Resource) (mark : UInt32 → FdTable → FdTable) :
    ¬ LeastFreeLaw t (maxFd.toNat + 1) r (returned mark (t.insertAtLeast low r)) := by
  intro h
  have hempty : FreeFrom t (maxFd.toNat + 1) = ∅ := by
    refine Set.eq_empty_of_forall_notMem fun fd hfd => ?_
    have hlt := fd.toNat_lt
    have hmin : 4294967295 + 1 ≤ fd.toNat := hfd.1
    omega
  obtain ⟨e, he, hres⟩ := h.full hempty
  exact absurd (returned_nonneg hres) (Int.not_le.mpr he)

theorem dup_eq_returned (hr : t.cloned old = .ok r) :
    dup t old.toNat = returned (fun fd u => u.setCloexec fd false) (t.insertAtLeast (old + 1) r) := by
  rw [dup, u32Fd_toNat]
  simp only [FdTable.internalDup, hr, returned]
  cases t.insertAtLeast (old + 1) r <;> rfl

theorem dupfd_eq_returned (hr : t.cloned old = .ok r) (harg : 0 ≤ (BitVec.ofInt 32 arg).toInt) (on : Bool) :
    fcntlDupfd t old.toNat arg on = returned (fun fd u => u.setCloexec fd on)
      (t.insertAtLeast (UInt32.ofBitVec (BitVec.ofInt 32 arg)) r) := by
  rw [fcntlDupfd, u32Fd_toNat]
  simp only [if_neg (Int.not_lt.mpr harg), hr, returned]
  cases t.insertAtLeast _ r <;> rfl

/-- A search takes the least free number, or fails where there is none, exactly when
some number other than the last of all is free. -/
theorem least_free_iff (t : FdTable) (r : Resource) :
    (∀ min, LeastFreeLaw t min.toNat r (returned (fun _ u => u) (t.insertAtLeast min r)) ↔
        ∃ fd, min ≤ fd ∧ fd < maxFd ∧ t.table.get? fd = none) ∧
      (∀ old, t.cloned old = .ok r → (LeastFreeLaw t (old.toNat + 1) r (dup t old.toNat) ↔
        ∃ fd, old < fd ∧ fd < maxFd ∧ t.table.get? fd = none)) ∧
      ∀ old arg on, t.cloned old = .ok r → 0 ≤ (BitVec.ofInt 32 arg).toInt →
        (LeastFreeLaw t (BitVec.ofInt 32 arg).toNat r (fcntlDupfd t old.toNat arg on) ↔
          ∃ fd, UInt32.ofBitVec (BitVec.ofInt 32 arg) ≤ fd ∧ fd < maxFd ∧ t.table.get? fd = none) := by
  have hmark (on : Bool) (fd : UInt32) (u : FdTable) : (u.setCloexec fd on).table = u.table ∧
      (u.setCloexec fd on).nextFd = u.nextFd := ⟨rfl, rfl⟩
  refine ⟨fun min => leastFreeLaw_iff t min r fun _ _ => ⟨rfl, rfl⟩, fun old hr => ?_,
    fun old arg on hr harg => ?_⟩
  · rw [dup_eq_returned hr]
    by_cases hmax : old = maxFd
    · subst hmax
      refine iff_of_false (not_leastFreeLaw_max t _ r _) ?_
      rintro ⟨fd, hlt, hgt, -⟩
      exact UInt32.lt_irrefl _ (UInt32.lt_trans hlt hgt)
    · have hsucc : (old + 1).toNat = old.toNat + 1 :=
        FdTable.toNat_succ fun he => hmax (UInt32.toNat_inj.mp he)
      have hle (fd : UInt32) : old + 1 ≤ fd ↔ old < fd := by
        rw [UInt32.le_iff_toNat_le, UInt32.lt_iff_toNat_lt, hsucc, Nat.succ_le_iff]
      rw [← hsucc, leastFreeLaw_iff t (old + 1) r (hmark false), RoomFrom]
      simp only [hle]
  · rw [dupfd_eq_returned hr harg]
    exact leastFreeLaw_iff t _ r (hmark on)

/-- Standard input from number 3 on. -/
theorem least_free_fresh : LeastFreeLaw freshFds 1 (.stdin ⟨0, 0⟩) (dup freshFds 0) :=
  ((least_free_iff freshFds (.stdin ⟨0, 0⟩)).2.1 0 rfl).mpr ⟨3, by decide, by decide, rfl⟩

def lastTaken : FdTable := bindFree freshFds maxFd (.stdin ⟨0, 0⟩)

theorem lastTaken_reached : Reaches nextTable (fun _ _ => True) freshFds lastTaken :=
  .step .start trivial (rfl : nextTable freshFds (.dup2 0 4294967295) = some lastTaken)

theorem lastTaken_firstFree : lastTaken.firstFree 0 = some 3 := by
  have hbound (fd : UInt32) (hfd : lastTaken.table.containsKey fd = true) (hlt : fd.toNat < 3) :
      lastTaken.firstFree fd = lastTaken.firstFree (fd + 1) := by
    rw [FdTable.firstFree, if_pos hfd, if_neg (by omega)]
  have hthree : lastTaken.firstFree 3 = some 3 := by
    rw [FdTable.firstFree, if_neg (by decide)]
  calc lastTaken.firstFree 0 = lastTaken.firstFree 1 := hbound 0 rfl (by decide)
    _ = lastTaken.firstFree 2 := hbound 1 rfl (by decide)
    _ = lastTaken.firstFree 3 := hbound 2 rfl (by decide)
    _ = some 3 := hthree

/-- From the last number on the search never ends, and `dup` of it gives 3. -/
theorem least_free_wraps :
    Reaches nextTable (fun _ _ => True) freshFds lastTaken ∧
      lastTaken.cloned maxFd = .ok (.stdin ⟨0, 0⟩) ∧
      lastTaken.insertAtLeast maxFd (.stdin ⟨0, 0⟩) = none ∧
      (dup lastTaken maxFd.toNat).map Prod.fst = some 3 ∧
      ¬ LeastFreeLaw lastTaken maxFd.toNat (.stdin ⟨0, 0⟩)
        (returned (fun _ u => u) (lastTaken.insertAtLeast maxFd (.stdin ⟨0, 0⟩))) ∧
      ¬ LeastFreeLaw lastTaken (maxFd.toNat + 1) (.stdin ⟨0, 0⟩) (dup lastTaken maxFd.toNat) := by
  have hr : lastTaken.cloned maxFd = .ok (.stdin ⟨0, 0⟩) := rfl
  have hroom : ¬ RoomFrom lastTaken maxFd := by
    rintro ⟨fd, hle, hlt, -⟩
    exact UInt32.lt_irrefl _ (UInt32.lt_of_le_of_lt hle hlt)
  refine ⟨lastTaken_reached, hr, ?_, ?_, ?_, ?_⟩
  · have hbound : lastTaken.table.containsKey maxFd = true := rfl
    have hmax : maxFd.toNat = 2 ^ 32 - 1 := rfl
    rw [insertAtLeast_eq, FdTable.firstFree, if_pos hbound, if_pos hmax, Option.map_none]
  · rw [dup_eq_returned hr, insertAtLeast_eq]
    show ((returned _ ((lastTaken.firstFree 0).map _)).map Prod.fst) = some 3
    rw [lastTaken_firstFree]
    rfl
  · exact mt (leastFreeLaw_iff lastTaken maxFd _ fun _ _ => ⟨rfl, rfl⟩).mp hroom
  · rw [dup_eq_returned hr]
    exact not_leastFreeLaw_max lastTaken _ _ _

end Sys

end EdgeLibos
