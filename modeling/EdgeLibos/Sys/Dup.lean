import EdgeLibos.Kernel
import EdgeLibos.Lib.Runs
import EdgeLibos.Sys.File

/-!
# Descriptor numbers

The calls that bind and release descriptors. `openat`, `pipe2`, `socket`,
`socketpair`, `accept4`, `eventfd2` and `epoll_create1` take the number the table
keeps as its next; `dup` and `fcntl(F_DUPFD)` search from a minimum, `dup2` and
`dup3` name the number. The sums on descriptor numbers are those of 32-bit words.
-/

namespace EdgeLibos

open Errno Lib

def Resource.Shared : Resource → Prop
  | .epoll _ | .eventFd _ => False
  | _ => True

namespace FdTable

/-- An event counter and an epoll instance cannot be duplicated. -/
def cloned (t : FdTable) (fd : UInt32) : Except Int Resource :=
  match t.get fd with
  | .error e => .error e
  | .ok (.epoll _) | .ok (.eventFd _) => .error (-EBADF)
  | .ok r => .ok r

theorem cloned_cases (t : FdTable) (fd : UInt32) :
    (∃ r, t.cloned fd = .ok r ∧ t.table.get? fd = some r ∧ r.Shared) ∨ t.cloned fd = .error (-EBADF) := by
  unfold cloned get
  cases t.table.get? fd with
  | none => exact .inr rfl
  | some r =>
    cases r with
    | epoll e => exact .inr rfl
    | eventFd e => exact .inr rfl
    | _ => exact .inl ⟨_, rfl, rfl, trivial⟩

/-- `internal_dup`; `none` when the search for a number never ends. -/
def internalDup (t : FdTable) (oldfd : UInt32) (target : Option UInt32) (wantCloexec : Bool) :
    Option (Int × FdTable) :=
  match t.cloned oldfd with
  | .error e => some (e, t)
  | .ok r =>
    match target with
    | some target =>
      -- The target may be unbound: the error of `close` is ignored.
      let t := (t.close target).toOption.getD t
      match t.insertAt target r with
      | .error e => some (e, t)
      | .ok (fd, t) => some (fd.toNat, t.setCloexec fd wantCloexec)
    | none => do
      let (fd, t) ← t.insertAtLeast (oldfd + 1) r
      return (fd.toNat, t.setCloexec fd wantCloexec)

end FdTable

namespace Sys

def O_CLOEXEC : BitVec 32 := 0o2000000

def dup (t : FdTable) (oldfd : Int) : Option (Int × FdTable) :=
  match u32Fd oldfd with
  | none => some (-EBADF, t)
  | some oldfd => t.internalDup oldfd none false

def dup2 (t : FdTable) (oldfd newfd : Int) : Option (Int × FdTable) :=
  match u32Fd oldfd, u32Fd newfd with
  | some oldfd, some newfd =>
    if oldfd = newfd then
      match t.get oldfd with
      | .ok _ => some (newfd.toNat, t)
      | .error e => some (e, t)
    else t.internalDup oldfd (some newfd) false
  | _, _ => some (-EBADF, t)

def dup3 (t : FdTable) (oldfd newfd flags : Int) : Option (Int × FdTable) :=
  match u32Fd oldfd, u32Fd newfd with
  | some oldfd, some newfd =>
    if BitVec.ofInt 32 flags &&& ~~~O_CLOEXEC ≠ 0 then some (-EINVAL, t)
    else if oldfd = newfd then some (-EINVAL, t)
    else t.internalDup oldfd (some newfd) (BitVec.ofInt 32 flags &&& O_CLOEXEC ≠ 0)
  | _, _ => some (-EBADF, t)

/-- The `F_DUPFD` and `F_DUPFD_CLOEXEC` arms of `fcntl`. -/
def fcntlDupfd (t : FdTable) (fd arg : Int) (wantCloexec : Bool) : Option (Int × FdTable) :=
  match u32Fd fd with
  | none => some (-EBADF, t)
  | some fd =>
    if (BitVec.ofInt 32 arg).toInt < 0 then some (-EINVAL, t)
    else
      match t.cloned fd with
      | .error e => some (e, t)
      | .ok r => do
        let (fd, t) ← t.insertAtLeast (UInt32.ofBitVec (BitVec.ofInt 32 arg)) r
        return (fd.toNat, t.setCloexec fd wantCloexec)

def close (t : FdTable) (fd : Int) : Int × FdTable :=
  match u32Fd fd with
  | none => (-EBADF, t)
  | some fd =>
    match t.close fd with
    | .ok t => (0, t)
    | .error e => (e, t)

/-- What a guest can do to the table. -/
inductive FdCall
  | insert (r : Resource) (cloexec : Bool)
  | dup (oldfd : Int)
  | dup2 (oldfd newfd : Int)
  | dup3 (oldfd newfd flags : Int)
  | dupfd (fd arg : Int) (cloexec : Bool)
  | setfd (fd : UInt32) (on : Bool)
  | close (fd : Int)
  deriving DecidableEq

def FdCall.run (t : FdTable) : FdCall → Option (Int × FdTable)
  | .insert r cloexec =>
    let (fd, t) := t.insert r
    some (fd.toNat, if cloexec then t.setCloexec fd true else t)
  | .dup oldfd => Sys.dup t oldfd
  | .dup2 oldfd newfd => Sys.dup2 t oldfd newfd
  | .dup3 oldfd newfd flags => Sys.dup3 t oldfd newfd flags
  | .dupfd fd arg cloexec => fcntlDupfd t fd arg cloexec
  | .setfd fd on => some (0, t.setCloexec fd on)
  | .close fd => some (Sys.close t fd)

def nextTable (t : FdTable) (c : FdCall) : Option FdTable := (c.run t).map Prod.snd

-- ---------------------------------------------------------------------------
-- What a call does to the bindings
-- ---------------------------------------------------------------------------

/-- The descriptor that a call names for release or replacement. -/
def FdCall.target : FdCall → Option UInt32
  | .dup2 _ newfd | .dup3 _ newfd _ => u32Fd newfd
  | .close fd => u32Fd fd
  | _ => none

def maxFd : UInt32 := 4294967295

/-- Some number from `min` on, other than the last of all, is unbound. -/
def RoomFrom (t : FdTable) (min : UInt32) : Prop :=
  ∃ fd, min ≤ fd ∧ fd < maxFd ∧ t.table.get? fd = none

/-- The call does not bind the last of all descriptor numbers. -/
def SparesMax (t : FdTable) : FdCall → Prop
  | .insert _ _ => t.nextFd ≠ maxFd
  | .dup oldfd => ∀ fd, u32Fd oldfd = some fd → (t.cloned fd).isOk → RoomFrom t (fd + 1)
  | .dup2 oldfd newfd | .dup3 oldfd newfd _ => ∀ fd, u32Fd oldfd = some fd → (t.cloned fd).isOk →
      u32Fd newfd ≠ some maxFd
  | .dupfd fd arg _ => ∀ f, u32Fd fd = some f → (t.cloned f).isOk →
      RoomFrom t (UInt32.ofBitVec (BitVec.ofInt 32 arg))
  | .setfd _ _ => True
  | .close _ => True

def bump (t : FdTable) (fd : UInt32) : UInt32 := if fd ≥ t.nextFd then fd + 1 else t.nextFd

/-- A call leaves the bindings alone, releases the one it names, or binds one
descriptor: the one it names, the next number or one that was not bound. -/
inductive Effect (t : FdTable) (c : FdCall) (t' : FdTable) : Prop
  | same (htable : t'.table = t.table) (hnext : t'.nextFd = t.nextFd)
  | release (fd : UInt32) (hfd : fd ∈ c.target)
      (htable : ∀ x, t'.table.get? x = if x = fd then none else t.table.get? x)
      (hnext : t'.nextFd = t.nextFd)
  | bind (fd : UInt32) (r : Resource) (hfd : fd ∈ c.target ∨ fd = t.nextFd ∨ t.table.get? fd = none)
      (hmax : SparesMax t c → fd ≠ maxFd)
      (htable : ∀ x, t'.table.get? x = if x = fd then some r else t.table.get? x)
      (hnext : t'.nextFd = bump t fd)

variable {t t' : FdTable}

theorem firstFree_some (h : t.firstFree fd = some x) :
    t.table.get? x = none ∧ fd ≤ x ∧ ∀ y, fd ≤ y → t.table.get? y = none → x ≤ y := by
  induction fd using FdTable.firstFree.induct t with
  | case1 fd hb hmax =>
    rw [FdTable.firstFree, if_pos hb, if_pos hmax] at h
    cases h
  | case2 fd hb hmax ih =>
    rw [FdTable.firstFree, if_pos hb, if_neg hmax] at h
    obtain ⟨hfree, hle, hleast⟩ := ih h
    have hsucc : (fd + 1).toNat = fd.toNat + 1 := FdTable.toNat_succ hmax
    refine ⟨hfree, ?_, fun y hy hn => hleast y ?_ hn⟩
    · rw [UInt32.le_iff_toNat_le] at hle ⊢
      omega
    · have hne : fd.toNat ≠ y.toNat := by
        intro he
        obtain rfl := UInt32.toNat_inj.mp he
        rw [HashMap.containsKey, hn] at hb
        cases hb
      rw [UInt32.le_iff_toNat_le] at hy ⊢
      omega
  | case3 fd hb =>
    rw [FdTable.firstFree, if_neg hb] at h
    cases h
    refine ⟨?_, UInt32.le_refl _, fun y hy _ => hy⟩
    rw [HashMap.containsKey, Bool.not_eq_true, Option.isSome_eq_false_iff, Option.isNone_iff_eq_none] at hb
    exact hb

theorem RoomFrom.ne_max (hroom : RoomFrom t low) (h : t.firstFree low = some x) : x ≠ maxFd := by
  obtain ⟨fd, hmin, hlt, hfree⟩ := hroom
  have hle := (firstFree_some h).2.2 fd hmin hfree
  exact UInt32.ne_of_lt (UInt32.lt_of_le_of_lt hle hlt)

theorem setCloexec_table : (t.setCloexec fd on).table = t.table := rfl

theorem setCloexec_nextFd : (t.setCloexec fd on).nextFd = t.nextFd := rfl

theorem get_error_neg (h : FdTable.get t fd = .error e) : e < 0 := by
  unfold FdTable.get at h
  split at h
  · cases h
  · cases h
    decide

theorem close_cases (target : UInt32) :
    (∀ x, ((t.close target).toOption.getD t).table.get? x =
      if x = target then none else t.table.get? x) ∧
      ((t.close target).toOption.getD t).nextFd = t.nextFd := by
  unfold FdTable.close
  split
  · exact ⟨fun x => HashMap.get?_erase .., rfl⟩
  · rename_i hb
    refine ⟨fun x => ?_, rfl⟩
    split
    · rename_i hx
      rw [Bool.not_eq_true, HashMap.containsKey, Option.isSome_eq_false_iff,
        Option.isNone_iff_eq_none] at hb
      rw [hx]
      exact hb
    · rfl

-- ---------------------------------------------------------------------------
-- Duplicating calls
-- ---------------------------------------------------------------------------

def FdCall.source : FdCall → Option Int
  | .dup oldfd | .dup2 oldfd _ | .dup3 oldfd _ _ | .dupfd oldfd _ _ => some oldfd
  | .insert _ _ | .setfd _ _ | .close _ => none

def FdCall.wantsCloexec : FdCall → Bool
  | .dup3 _ _ flags => BitVec.ofInt 32 flags &&& O_CLOEXEC ≠ 0
  | .dupfd _ _ cloexec | .insert _ cloexec => cloexec
  | _ => false

def FdCall.searches : FdCall → Bool
  | .dup _ | .dupfd .. => true
  | _ => false

def FdCall.minimum (old : UInt32) : FdCall → UInt32
  | .dupfd _ arg _ => UInt32.ofBitVec (BitVec.ofInt 32 arg)
  | _ => old + 1

def bindFree (t : FdTable) (fd : UInt32) (r : Resource) : FdTable :=
  { t with nextFd := bump t fd, table := t.table.insert fd r }

theorem insertAtLeast_eq (t : FdTable) (low : UInt32) (r : Resource) :
    t.insertAtLeast low r = (t.firstFree low).map fun fd => (fd, bindFree t fd r) := by
  unfold FdTable.insertAtLeast
  cases t.firstFree low <;> rfl

/-- The error that the insertion could give does not happen: the number was just released. -/
theorem internalDup_named (hr : t.cloned old = .ok r) :
    t.internalDup old (some new) on = some ((new.toNat : Int),
      (bindFree ((t.close new).toOption.getD t) new r).setCloexec new on) := by
  have hfree : ((t.close new).toOption.getD t).table.containsKey new = false := by
    rw [HashMap.containsKey, (close_cases (t := t) new).1, if_pos rfl]
    rfl
  simp only [FdTable.internalDup, hr, FdTable.insertAt, hfree, Bool.false_eq_true, if_false, bindFree,
    bump]

theorem replaced_get? (t : FdTable) (new : UInt32) (r : Resource) (on : Bool) (x : UInt32) :
    ((bindFree ((t.close new).toOption.getD t) new r).setCloexec new on).table.get? x =
      if x = new then some r else t.table.get? x := by
  rw [setCloexec_table, bindFree, HashMap.get?_insert]
  split
  · rfl
  · rename_i hx
    rw [(close_cases (t := t) new).1, if_neg hx]

/-- A duplicating call fails and changes nothing, finds that the two descriptors are one,
replaces the descriptor it names or looks for a free number. -/
inductive DupCase (t : FdTable) (c : FdCall) (oldfd : Int) : Prop
  | refused (e : Int) (he : e < 0) (hrun : c.run t = some (e, t))
  | itself (hc : c = .dup2 oldfd oldfd) (hrun : c.run t = some (oldfd, t))
  | named (old new : UInt32) (r : Resource) (hold : u32Fd oldfd = some old)
      (hr : t.cloned old = .ok r) (hnew : c.target = some new) (hne : old ≠ new)
      (hrun : c.run t = some ((new.toNat : Int),
        (bindFree ((t.close new).toOption.getD t) new r).setCloexec new c.wantsCloexec))
  | searched (old : UInt32) (r : Resource) (hold : u32Fd oldfd = some old)
      (hr : t.cloned old = .ok r) (hsearch : c.searches = true)
      (hlow : (c.minimum old).toNat ≤ old.toNat + 1 ∨ (c.minimum old).toNat < 2 ^ 31)
      (hrun : c.run t = (t.firstFree (c.minimum old)).map fun fd =>
        ((fd.toNat : Int), (bindFree t fd r).setCloexec fd c.wantsCloexec))

theorem DupCase.ofNamed (hold : u32Fd oldfd = some old) (hnew : c.target = some new) (hne : old ≠ new)
    (hrun : c.run t = t.internalDup old (some new) c.wantsCloexec) : DupCase t c oldfd := by
  rcases t.cloned_cases old with ⟨r, hr, -⟩ | hr
  · exact .named old new r hold hr hnew hne (hrun.trans (internalDup_named hr))
  · refine .refused (-EBADF) (by decide) (hrun.trans ?_)
    simp only [FdTable.internalDup, hr]

theorem DupCase.ofSearch (hold : u32Fd oldfd = some old) (hsearch : c.searches = true)
    (hlow : (c.minimum old).toNat ≤ old.toNat + 1 ∨ (c.minimum old).toNat < 2 ^ 31)
    (herror : t.cloned old = .error (-EBADF) → c.run t = some (-EBADF, t))
    (hok : ∀ r, t.cloned old = .ok r → c.run t = (t.insertAtLeast (c.minimum old) r).map fun x =>
      ((x.1.toNat : Int), x.2.setCloexec x.1 c.wantsCloexec)) : DupCase t c oldfd := by
  rcases t.cloned_cases old with ⟨r, hr, -⟩ | hr
  · refine .searched old r hold hr hsearch hlow ?_
    rw [hok r hr, insertAtLeast_eq, Option.map_map]
    rfl
  · exact .refused (-EBADF) (by decide) (herror hr)

theorem toNat_succ_le (fd : UInt32) : (fd + 1).toNat ≤ fd.toNat + 1 := by
  rw [UInt32.toNat_add, UInt32.toNat_one]
  exact Nat.mod_le _ _

theorem toNat_ofBitVec_lt (h : ¬ (BitVec.ofInt 32 arg).toInt < 0) :
    (UInt32.ofBitVec (BitVec.ofInt 32 arg)).toNat < 2 ^ 31 := by
  have hmsb := BitVec.toInt_eq_toNat_cond (BitVec.ofInt 32 arg)
  show (BitVec.ofInt 32 arg).toNat < 2 ^ 31
  have hlt := (BitVec.ofInt 32 arg).isLt
  split at hmsb
  · omega
  · omega

theorem dup_case (t : FdTable) (oldfd : Int) : DupCase t (.dup oldfd) oldfd := by
  cases hold : u32Fd oldfd with
  | none => exact .refused (-EBADF) (by decide) (by simp only [FdCall.run, dup, hold])
  | some old =>
    refine .ofSearch hold rfl (.inl (toNat_succ_le old)) (fun hr => ?_) fun r hr => ?_
    · simp only [FdCall.run, dup, hold, FdTable.internalDup, hr]
    · simp only [FdCall.run, dup, hold, FdTable.internalDup, hr, FdCall.minimum]
      cases t.insertAtLeast (old + 1) r <;> rfl

theorem dup2_case (t : FdTable) (oldfd newfd : Int) : DupCase t (.dup2 oldfd newfd) oldfd := by
  have hebadf : -EBADF < 0 := by decide
  cases hold : u32Fd oldfd with
  | none => exact .refused _ hebadf (by simp only [FdCall.run, dup2, hold])
  | some old =>
    cases hnew : u32Fd newfd with
    | none => exact .refused _ hebadf (by simp only [FdCall.run, dup2, hold, hnew])
    | some new =>
      by_cases hne : old = new
      · subst hne
        obtain rfl : newfd = oldfd := (toNat_u32Fd hnew).symm.trans (toNat_u32Fd hold)
        cases hget : t.table.get? old with
        | none =>
          refine .refused _ hebadf ?_
          simp only [FdCall.run, dup2, hold, if_true, FdTable.get, hget]
        | some r =>
          refine .itself rfl ?_
          simp only [FdCall.run, dup2, hold, if_true, FdTable.get, hget, toNat_u32Fd hold]
      · refine .ofNamed hold hnew hne ?_
        simp only [FdCall.run, dup2, hold, hnew, if_neg hne, FdCall.wantsCloexec]

theorem dup3_case (t : FdTable) (oldfd newfd flags : Int) : DupCase t (.dup3 oldfd newfd flags) oldfd := by
  have hebadf : -EBADF < 0 := by decide
  have heinval : -EINVAL < 0 := by decide
  cases hold : u32Fd oldfd with
  | none => exact .refused _ hebadf (by simp only [FdCall.run, dup3, hold])
  | some old =>
    cases hnew : u32Fd newfd with
    | none => exact .refused _ hebadf (by simp only [FdCall.run, dup3, hold, hnew])
    | some new =>
      by_cases hflags : BitVec.ofInt 32 flags &&& ~~~O_CLOEXEC ≠ 0
      · exact .refused _ heinval (by simp only [FdCall.run, dup3, hold, hnew, if_pos hflags])
      · by_cases hne : old = new
        · refine .refused _ heinval ?_
          simp only [FdCall.run, dup3, hold, hnew, if_neg hflags, if_pos hne]
        · refine .ofNamed hold hnew hne ?_
          simp only [FdCall.run, dup3, hold, hnew, if_neg hflags, if_neg hne, FdCall.wantsCloexec]

theorem dupfd_case (t : FdTable) (fd arg : Int) (cloexec : Bool) :
    DupCase t (.dupfd fd arg cloexec) fd := by
  cases hold : u32Fd fd with
  | none => exact .refused (-EBADF) (by decide) (by simp only [FdCall.run, fcntlDupfd, hold])
  | some old =>
    by_cases harg : (BitVec.ofInt 32 arg).toInt < 0
    · exact .refused (-EINVAL) (by decide) (by simp only [FdCall.run, fcntlDupfd, hold, if_pos harg])
    · refine .ofSearch hold rfl (.inr (toNat_ofBitVec_lt harg)) (fun hr => ?_) fun r hr => ?_
      · simp only [FdCall.run, fcntlDupfd, hold, if_neg harg, hr]
      · simp only [FdCall.run, fcntlDupfd, hold, if_neg harg, hr, FdCall.minimum]
        cases t.insertAtLeast _ r <;> rfl

theorem dup_cases (t : FdTable) (hc : c.source = some oldfd) : DupCase t c oldfd := by
  cases c with
  | insert | setfd | close => cases hc
  | dup a =>
    cases hc
    exact dup_case t oldfd
  | dup2 a b =>
    cases hc
    exact dup2_case t oldfd b
  | dup3 a b flags =>
    cases hc
    exact dup3_case t oldfd b flags
  | dupfd a arg cloexec =>
    cases hc
    exact dupfd_case t oldfd arg cloexec

-- ---------------------------------------------------------------------------
-- One effect for each call
-- ---------------------------------------------------------------------------

theorem SparesMax.named (hs : SparesMax t c) (hc : c.source = some oldfd) (hold : u32Fd oldfd = some old)
    (hr : t.cloned old = .ok r) (hnew : c.target = some new) : new ≠ maxFd := by
  have hok : (t.cloned old).isOk = true := by
    rw [hr]
    rfl
  rintro rfl
  cases c with
  | insert | dup | dupfd | setfd => cases hnew
  | close => cases hc
  | dup2 | dup3 =>
    cases hc
    exact hs old hold hok hnew

theorem SparesMax.searched (hs : SparesMax t c) (hc : c.source = some oldfd) (hold : u32Fd oldfd = some old)
    (hr : t.cloned old = .ok r) (hsearch : c.searches = true) : RoomFrom t (c.minimum old) := by
  have hok : (t.cloned old).isOk = true := by
    rw [hr]
    rfl
  cases c with
  | insert | dup2 | dup3 | setfd | close => cases hsearch
  | dup | dupfd =>
    cases hc
    exact hs old hold hok

theorem dup_effect (hc : c.source = some oldfd) (h : FdCall.run t c = some (n, t')) : Effect t c t' := by
  cases dup_cases t hc with
  | refused e _ hrun =>
    cases h.symm.trans hrun
    exact .same rfl rfl
  | itself _ hrun =>
    cases h.symm.trans hrun
    exact .same rfl rfl
  | named old new r hold hr hnew _ hrun =>
    cases h.symm.trans hrun
    refine .bind new r (.inl hnew) (fun hs => hs.named hc hold hr hnew) (replaced_get? t new r _) ?_
    rw [setCloexec_nextFd, bindFree, bump, bump, (close_cases (t := t) new).2]
  | searched old r hold hr hsearch _ hrun =>
    obtain ⟨fd, hfd, hpair⟩ := Option.map_eq_some_iff.mp (hrun.symm.trans h)
    cases hpair
    exact .bind fd r (.inr (.inr (firstFree_some hfd).1))
      (fun hs => (hs.searched hc hold hr hsearch).ne_max hfd) (fun x => HashMap.get?_insert ..) rfl

theorem FdCall.run_effect (c : FdCall) (h : c.run t = some (n, t')) : Effect t c t' := by
  cases c with
  | insert r cloexec =>
    have hge : t.nextFd ≥ t.nextFd := UInt32.le_refl _
    cases h
    refine .bind t.nextFd r (.inr (.inl rfl)) id (fun x => ?_) ?_
    · split <;> exact HashMap.get?_insert ..
    · rw [bump, if_pos hge]
      split <;> rfl
  | dup | dup2 | dup3 | dupfd => exact dup_effect rfl h
  | setfd fd on =>
    cases h
    exact .same rfl rfl
  | close fd =>
    simp only [run, Sys.close] at h
    split at h
    · cases h
      exact .same rfl rfl
    · rename_i f hf
      obtain ⟨hget, hnext⟩ := close_cases (t := t) f
      split at h
      · rename_i u hu
        cases h
        rw [hu] at hget hnext
        exact .release f hf hget hnext
      · cases h
        exact .same rfl rfl

-- ---------------------------------------------------------------------------
-- What holds of every resource in the table
-- ---------------------------------------------------------------------------

def AllBound (P : Resource → Prop) (t : FdTable) : Prop := ∀ fd r, t.table.get? fd = some r → P r

variable {P : Resource → Prop}

theorem AllBound.bind (h : AllBound P t) (hr : P r)
    (ht : ∀ x, t'.table.get? x = if x = fd then some r else t.table.get? x) : AllBound P t' := by
  intro x y hy
  rw [ht] at hy
  split at hy
  · exact Option.some.inj hy ▸ hr
  · exact h x y hy

theorem AllBound.release (h : AllBound P t) (hc : t.close fd = .ok t') : AllBound P t' := by
  unfold FdTable.close at hc
  split at hc
  · cases hc
    intro x y hy
    simp only [HashMap.get?_erase] at hy
    split at hy
    · cases hy
    · exact h x y hy
  · cases hc

theorem AllBound.cloned (h : AllBound P t) (hc : t.cloned fd = .ok r) : P r := by
  unfold FdTable.cloned at hc
  split at hc
  · cases hc
  · cases hc
  · cases hc
  · rename_i hget
    cases hc
    exact h fd _ (FdTable.get_ok.mp hget)

theorem AllBound.duplicate (h : AllBound P t) (hc : c.source = some oldfd)
    (hrun : FdCall.run t c = some (n, t')) : AllBound P t' := by
  cases dup_cases t hc with
  | refused e _ hsame =>
    cases hrun.symm.trans hsame
    exact h
  | itself _ hsame =>
    cases hrun.symm.trans hsame
    exact h
  | named old new r _ hr _ _ hbind =>
    cases hrun.symm.trans hbind
    have hclosed : AllBound P ((t.close new).toOption.getD t) := by
      cases hc : t.close new with
      | error e => exact h
      | ok u => exact h.release hc
    exact hclosed.bind (h.cloned hr) fun x => HashMap.get?_insert ..
  | searched old r _ hr _ _ hbind =>
    obtain ⟨fd, -, hpair⟩ := Option.map_eq_some_iff.mp (hbind.symm.trans hrun)
    cases hpair
    exact h.bind (h.cloned hr) fun x => HashMap.get?_insert ..

theorem AllBound.close (h : AllBound P t) (fd : Int) : AllBound P (Sys.close t fd).2 := by
  unfold Sys.close
  split
  · exact h
  · split
    · rename_i hc
      exact h.release hc
    · exact h

theorem AllBound.run (h : AllBound P t) (hnew : ∀ r cloexec, c = .insert r cloexec → P r)
    (hrun : FdCall.run t c = some (n, t')) : AllBound P t' := by
  cases c with
  | insert r cloexec =>
    cases hrun
    have ht : ∀ x, (t.insert r).2.table.get? x = if x = t.nextFd then some r else t.table.get? x :=
      fun x => HashMap.get?_insert ..
    split
    · exact h.bind (hnew r cloexec rfl) ht
    · exact h.bind (hnew r cloexec rfl) ht
  | dup | dup2 | dup3 | dupfd => exact h.duplicate rfl hrun
  | setfd fd on =>
    cases hrun
    exact h
  | close fd =>
    have ht : (Sys.close t fd).2 = t' := congrArg Prod.snd (Option.some.inj hrun)
    exact ht ▸ h.close fd

-- ---------------------------------------------------------------------------
-- Every bound descriptor is below the next number
-- ---------------------------------------------------------------------------

def BoundBelowNext (t : FdTable) : Prop := ∀ fd r, t.table.get? fd = some r → fd < t.nextFd

theorem BoundBelowNext.next_unbound (h : BoundBelowNext t) : t.table.get? t.nextFd = none := by
  cases hr : t.table.get? t.nextFd with
  | none => rfl
  | some r => exact absurd (h _ _ hr) (UInt32.lt_irrefl _)

theorem lt_bump (h : fd ≠ maxFd) : fd < bump t fd := by
  unfold bump
  split
  · have hmax : fd.toNat ≠ 2 ^ 32 - 1 := fun he => h (UInt32.toNat_inj.mp he)
    rw [UInt32.lt_iff_toNat_lt, FdTable.toNat_succ hmax]
    omega
  · rename_i hlt
    exact UInt32.not_le.mp hlt

theorem next_le_bump (h : fd ≠ maxFd) : t.nextFd ≤ bump t fd := by
  unfold bump
  split
  · rename_i hge
    have hlt : fd < bump t fd := lt_bump h
    rw [bump, if_pos hge] at hlt
    exact UInt32.le_of_lt (UInt32.lt_of_le_of_lt hge hlt)
  · exact UInt32.le_refl _

theorem BoundBelowNext.step (h : BoundBelowNext t) (hs : SparesMax t c) (he : Effect t c t') :
    BoundBelowNext t' := by
  intro x r hx
  cases he with
  | same htable hnext =>
    rw [hnext]
    rw [htable] at hx
    exact h x r hx
  | release fd _ htable hnext =>
    rw [hnext]
    rw [htable] at hx
    split at hx
    · cases hx
    · exact h x r hx
  | bind fd r' _ hmax htable hnext =>
    rw [hnext]
    rw [htable] at hx
    split at hx
    · rename_i hfd
      rw [hfd]
      exact lt_bump (hmax hs)
    · exact UInt32.lt_of_lt_of_le (h x r hx) (next_le_bump (hmax hs))

/-- A call that finds every bound descriptor below the next number replaces and
removes no binding but the one it names. -/
theorem BoundBelowNext.keeps (h : BoundBelowNext t) (he : Effect t c t')
    (hr : t.table.get? fd = some r) (hfd : fd ∉ c.target) : t'.table.get? fd = some r := by
  cases he with
  | same htable _ => rw [htable, hr]
  | release x hx htable _ =>
    have hne : fd ≠ x := fun he => hfd (he ▸ hx)
    rw [htable, if_neg hne, hr]
  | bind x r' hx _ htable _ =>
    have hne : fd ≠ x := by
      rintro rfl
      rcases hx with hx | rfl | hx
      · exact hfd hx
      · rw [h.next_unbound] at hr
        cases hr
      · rw [hx] at hr
        cases hr
    rw [htable, if_neg hne, hr]

theorem boundBelowNext_new : BoundBelowNext (Kernel.new args env vfs seed).fds := by
  intro fd r hr
  have hall : ∀ p ∈ (FdTable.withBufferedStdio .empty).1.table.entries,
      p.1 < (FdTable.withBufferedStdio .empty).1.nextFd := by decide
  exact hall (fd, r) (HashMap.get?_eq_some_iff.mp hr)

/-- As long as no call binds the last of all descriptor numbers, bound descriptors
stay below the next number, a new one was unbound, and only the descriptor that a
call names loses its binding. -/
theorem fds_never_overwritten
    (h : Reaches nextTable SparesMax (Kernel.new args env vfs seed).fds t) :
    (∀ fd r, t.table.get? fd = some r → fd < t.nextFd) ∧
      (∀ r, t.table.get? (t.insert r).1 = none) ∧
      ∀ c n t', FdCall.run t c = some (n, t') → ∀ fd r, t.table.get? fd = some r →
        fd ∉ c.target → t'.table.get? fd = some r := by
  have hinv : BoundBelowNext t := by
    refine h.invariant boundBelowNext_new ?_
    intro s c s' hs hspare hnext
    obtain ⟨⟨n, u⟩, hrun, rfl⟩ := Option.map_eq_some_iff.mp hnext
    exact hs.step hspare (c.run_effect hrun)
  refine ⟨hinv, fun r => hinv.next_unbound, ?_⟩
  intro c n t' hrun fd r hr hfd
  exact hinv.keeps (c.run_effect hrun) hr hfd

def freshFds : FdTable := (Kernel.new [] [] { root := "/", cwd := "/" } (Vector.replicate 32 0)).fds

theorem fds_never_overwritten_dup2 :
    ∃ t, Reaches nextTable SparesMax freshFds t ∧ t.table.get? 1000 = t.table.get? 0 ∧
      (∀ fd r, t.table.get? fd = some r → fd < t.nextFd) ∧
      (∀ r, t.table.get? (t.insert r).1 = none) ∧
      ∀ c n t', FdCall.run t c = some (n, t') → ∀ fd r, t.table.get? fd = some r →
        fd ∉ c.target → t'.table.get? fd = some r := by
  have hspare : SparesMax freshFds (.dup2 0 1000) := fun _ _ _ => by decide
  have hreach : Reaches nextTable SparesMax freshFds _ :=
    .step .start hspare (rfl : nextTable freshFds (.dup2 0 1000) = some _)
  exact ⟨_, hreach, rfl, fds_never_overwritten hreach⟩

/-- Standard input duplicated to the last number makes 0 the next one. -/
theorem dup2_wraps_next :
    ∃ t, Reaches nextTable (fun _ _ => True) freshFds t ∧ t.table.get? maxFd = freshFds.table.get? 0 ∧
      ¬ (∀ fd r, t.table.get? fd = some r → fd < t.nextFd) ∧
      (t.insert (.file 0)).1 = 0 ∧ t.table.get? 0 = freshFds.table.get? 0 ∧
      (t.insert (.file 0)).2.table.get? 0 ≠ t.table.get? 0 := by
  refine ⟨_, .step .start trivial (rfl : nextTable freshFds (.dup2 0 4294967295) = some _), rfl, ?_,
    rfl, rfl, by decide⟩
  intro hall
  exact absurd (hall maxFd _ rfl) (by decide)

end Sys

end EdgeLibos
