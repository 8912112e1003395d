import EdgeLibos.Lib.History
import EdgeLibos.Sys.Fcntl
import EdgeLibos.Sys.SockAddrs

/-!
# Event counters

An event counter adds up what is written to it and gives all of it to the next reader. It
stops at the largest word, so what is read is what was written unless the sum gets there.
It cannot be duplicated, so it ends with its one descriptor.
-/

namespace EdgeLibos.Sys

open Errno Lib
open FdSets (slice_byteAt)
open SockAddrs (slice_take slice_length copy_read copy_room)

/-- Only the table's own calls change the table. -/
structure SocketCalls.KeepsTable (sock : SocketCalls) : Prop where
  recvfrom : ∀ w fd buf len, (sock.recvfrom w fd buf len).2.kernel.fds = w.kernel.fds
  sendto : ∀ w fd buf len, (sock.sendto w fd buf len).2.kernel.fds = w.kernel.fds

namespace EventFd

section
variable (sock : SocketCalls) (fd : UInt32)

def wordAt (memory : Option MemoryKind) (ptr : Int) : Nat :=
  match guestSlice memory ptr 8 with
  | .ok bytes => (fromNeBytes bytes).toNat
  | .error _ => 0

inductive Action
  | io (c : Call)
  | table (c : FdCall)

/-- The descriptor that a call names for release or replacement. -/
def Action.target : Action → Option UInt32
  | .io _ => none
  | .table c => c.target

def Action.OpensNone : Action → Prop
  | .table (.insert _ _) => False
  | _ => True

/-- `none` when the search for a number never ends. -/
def next (w : World) : Action → Option World
  | .io c => some (step sock w c).2
  | .table c => (nextTable w.kernel.fds c).map fun fds => { w with kernel.fds := fds }

def counterAt (w : World) : Option EventFdInner :=
  match w.kernel.fds.table.get? fd with
  | some (.eventFd e) => some e
  | _ => none

def held (counter : Option EventFdInner) : Nat := counter.elim 0 fun e => e.counter.toNat

/-- What a read of the counter put into the guest's buffer. -/
def received (w : World) : Action → Nat
  | .io (.read fd' buf len) =>
    let (n, w') := read sock w fd' buf len
    if (counterAt fd w).isSome ∧ u32Fd fd' = some fd ∧ n = 8 then wordAt w'.kernel.memory buf else 0
  | _ => 0

def sent (w : World) : Action → Nat
  | .io (.write fd' buf len) =>
    if (counterAt fd w).isSome ∧ u32Fd fd' = some fd ∧ (write sock w fd' buf len).1 = 8 then
      wordAt w.kernel.memory buf
    else 0
  | _ => 0

def total (amount : World → Action → Nat) (w : World) (acts : List Action) : Nat :=
  (history (next sock) (fun w a => [amount w a]) w acts).sum

end

-- ---------------------------------------------------------------------------
-- Words
-- ---------------------------------------------------------------------------

theorem toNeBytes_eq (v : UInt64) : toNeBytes v = le64 v := by
  simp [toNeBytes, le64, Postcard.Codec.encLe, List.range, List.range.loop, Nat.div_div_eq_div_mul]

theorem fromNeBytes_toNeBytes (v : UInt64) : fromNeBytes (toNeBytes v) = v := by
  rw [toNeBytes_eq]
  exact ofLe64_le64 v

theorem toNeBytes_length (v : UInt64) : (toNeBytes v).length = 8 := by simp [toNeBytes]

theorem wordAt_take {memory : Option MemoryKind} {buf len : Int} {bytes : List UInt8}
    (h : guestSlice memory buf len = .ok bytes) (hlen : 8 ≤ bytes.length) :
    wordAt memory buf = (fromNeBytes (bytes.take 8)).toNat := by
  have hle := slice_length h
  have hword : guestSlice memory buf 8 = .ok (bytes.take 8) := slice_take h (by decide) (by omega)
  simp only [wordAt, hword]

theorem wordAt_copy {memory memory' : Option MemoryKind} {buf len : Int}
    (h : guestCopy memory buf len (toNeBytes v) = .ok memory') : wordAt memory' buf = v.toNat := by
  have hread := copy_read h
  rw [toNeBytes_length] at hread
  have hword : guestSlice memory' buf 8 = .ok (toNeBytes v) := hread
  simp only [wordAt, hword, fromNeBytes_toNeBytes]

theorem ofBitVec_eq (n : Int) : UInt64.ofBitVec (BitVec.ofInt 64 n) = UInt64.ofInt n := by
  apply UInt64.toBitVec_inj.mp
  apply BitVec.eq_of_toNat_eq
  simp [UInt64.ofInt, UInt64.ofNat]
  omega

-- ---------------------------------------------------------------------------
-- The balance
-- ---------------------------------------------------------------------------

/-- What happens to a counter while `got` is read from it and `gave` written to it. What its
descriptor stands for after it was closed or replaced is no counter. -/
structure Balanced (c c' : Option EventFdInner) (got gave : Nat) : Prop where
  le : got + held c' ≤ held c + gave
  eq : c'.isSome → held c + gave < 2 ^ 64 → got + held c' = held c + gave
  gone : c = none → c' = none

/-- A balance after which the descriptor still stands for the counter. -/
structure Counted (c c' : Option EventFdInner) (got gave : Nat) : Prop extends Balanced c c' got gave where
  kept : c.isSome → c'.isSome

theorem Balanced.same (c : Option EventFdInner) : Balanced c c 0 0 :=
  ⟨by omega, fun _ _ => by omega, fun h => h⟩

theorem Counted.same (c : Option EventFdInner) : Counted c c 0 0 := ⟨.same c, fun h => h⟩

theorem Balanced.lost (c : Option EventFdInner) : Balanced c none 0 0 :=
  ⟨by simp [held], fun h => by simp at h, fun _ => rfl⟩

theorem Balanced.trans (h : Balanced c c₁ got gave) (h' : Balanced c₁ c₂ got' gave') :
    Balanced c c₂ (got + got') (gave + gave') := by
  have hle := h.le
  have hle' := h'.le
  refine ⟨by omega, fun hsome hlt => ?_, fun hnone => h'.gone (h.gone hnone)⟩
  have hbetween : c₁.isSome := by
    cases c₁ with
    | some e => rfl
    | none =>
      rw [h'.gone rfl] at hsome
      cases hsome
  have heq := h.eq hbetween (by omega)
  have heq' := h'.eq hsome (by omega)
  omega

-- ---------------------------------------------------------------------------
-- One call
-- ---------------------------------------------------------------------------

section
variable {sock : SocketCalls} {fd f : UInt32} {w w' : World} {e : EventFdInner} {r : Resource}

theorem counterAt_some (h : counterAt fd w = some e) : w.kernel.fds.table.get? fd = some (.eventFd e) := by
  unfold counterAt at h
  split at h
  · rename_i he
    cases h
    exact he
  · cases h

theorem counterAt_of (h : w.kernel.fds.table.get? fd = some (.eventFd e)) : counterAt fd w = some e := by
  simp only [counterAt, h]

theorem counterAt_congr (h : w'.kernel.fds.table.get? fd = w.kernel.fds.table.get? fd) :
    counterAt fd w' = counterAt fd w := by
  simp only [counterAt, h]

theorem readFrom_other (hne : f ≠ fd ∨ ∀ e, r ≠ .eventFd e) (h : readFrom w f len r = some (out, w')) :
    w'.kernel.fds.table.get? fd = w.kernel.fds.table.get? fd := by
  cases r with
  | eventFd e =>
    obtain hne | hne := hne
    · cases h
      exact (HashMap.get?_insert ..).trans (if_neg hne.symm)
    · exact absurd rfl (hne e)
  | _ => cases h <;> rfl

theorem writeTo_other (hne : f ≠ fd ∨ ∀ e, r ≠ .eventFd e) (h : writeTo w f bytes r = some (n, w')) :
    w'.kernel.fds.table.get? fd = w.kernel.fds.table.get? fd := by
  cases r with
  | eventFd e =>
    obtain hne | hne := hne
    · cases h
      exact (HashMap.get?_insert ..).trans (if_neg hne.symm)
    · exact absurd rfl (hne e)
  | _ => cases h <;> rfl

theorem eq_of_get {t : FdTable} (h : t.get f = .ok r) : t.table.get? f = some r := FdTable.get_ok.mp h

/-- The read is not one of the counter. -/
def Elsewhere (fd : UInt32) (w : World) (fd' : Int) : Prop := counterAt fd w = none ∨ u32Fd fd' ≠ some fd

theorem Elsewhere.other (h : Elsewhere fd w fd') (hfd : u32Fd fd' = some f) (hget : w.kernel.fds.get f = .ok r) :
    f ≠ fd ∨ ∀ e, r ≠ .eventFd e := by
  by_cases hf : f = fd
  · refine .inr fun e hr => ?_
    subst hf hr
    obtain hnone | hne := h
    · rw [counterAt_of (eq_of_get hget)] at hnone
      cases hnone
    · exact hne hfd
  · exact .inl hf

theorem read_elsewhere (hsock : sock.KeepsTable) (h : Elsewhere fd w fd') (buf len : Int) :
    Counted (counterAt fd w) (counterAt fd (read sock w fd' buf len).2)
      (received sock fd w (.io (.read fd' buf len))) (sent sock fd w (.io (.read fd' buf len))) := by
  have hzero : received sock fd w (.io (.read fd' buf len)) = 0 := by
    refine if_neg ?_
    rintro ⟨hsome, hfd, -⟩
    obtain hnone | hne := h
    · rw [hnone] at hsome
      cases hsome
    · exact hne hfd
  have hsame : (read sock w fd' buf len).2.kernel.fds.table.get? fd = w.kernel.fds.table.get? fd := by
    simp only [read]
    split
    · rfl
    · rename_i f hfd
      split
      · rfl
      · split
        · rfl
        · split
          · rfl
          · rename_i r hget
            split
            · rw [hsock.recvfrom]
            · rename_i hout
              exact (readFrom_other (h.other hfd hget) hout :)
  rw [hzero, counterAt_congr hsame]
  exact .same _

theorem write_elsewhere (hsock : sock.KeepsTable) (h : Elsewhere fd w fd') (buf len : Int) :
    Counted (counterAt fd w) (counterAt fd (write sock w fd' buf len).2)
      (received sock fd w (.io (.write fd' buf len))) (sent sock fd w (.io (.write fd' buf len))) := by
  have hzero : sent sock fd w (.io (.write fd' buf len)) = 0 := by
    refine if_neg ?_
    rintro ⟨hsome, hfd, -⟩
    obtain hnone | hne := h
    · rw [hnone] at hsome
      cases hsome
    · exact hne hfd
  have hsame : (write sock w fd' buf len).2.kernel.fds.table.get? fd = w.kernel.fds.table.get? fd := by
    simp only [write]
    split
    · rfl
    · rename_i f hfd
      split
      · rfl
      · split
        · rfl
        · split
          · rfl
          · rename_i r hget
            cases hout : writeTo w f _ r with
            | none => rw [Option.getD_none, hsock.sendto]
            | some p => exact writeTo_other (h.other hfd hget) hout
  rw [hzero, counterAt_congr hsame]
  exact .same _

theorem readFrom_counter (len : Nat) : ∃ out e', readFrom w fd len (.eventFd e) = some (out, w.setEventFd fd e') ∧
    ((out = .bytes (toNeBytes e.counter) ∧ 8 ≤ len ∧ e'.counter = 0) ∨ (∃ n, out = .ret n ∧ n ≠ 8 ∧ e' = e)) := by
  simp only [readFrom, EventFdInner.read]
  split_ifs with hlen hzero hnon
  · exact ⟨_, _, rfl, .inr ⟨_, rfl, by decide, rfl⟩⟩
  · exact ⟨_, _, rfl, .inr ⟨_, rfl, by decide, rfl⟩⟩
  · exact ⟨_, _, rfl, .inr ⟨_, rfl, by decide, rfl⟩⟩
  · exact ⟨_, _, rfl, .inl ⟨rfl, by omega, rfl⟩⟩

theorem setEventFd_counter : counterAt fd (w.setEventFd fd e) = some e :=
  counterAt_of ((HashMap.get?_insert ..).trans (if_pos rfl))

theorem read_counter (h : counterAt fd w = some e) (hfd : u32Fd fd' = some fd) (buf len : Int) :
    Counted (some e) (counterAt fd (read sock w fd' buf len).2)
      (received sock fd w (.io (.read fd' buf len))) (sent sock fd w (.io (.read fd' buf len))) := by
  have hfails (n : Int) (w' : World) (hn : n ≠ 8) (heq : read sock w fd' buf len = (n, w'))
      (hw : counterAt fd w' = some e) :
      Counted (some e) (counterAt fd (read sock w fd' buf len).2)
        (received sock fd w (.io (.read fd' buf len))) (sent sock fd w (.io (.read fd' buf len))) := by
    simp only [received, sent, heq, hn, and_false, if_false, hw]
    exact .same _
  have hget : w.kernel.fds.get fd = .ok (.eventFd e) := FdTable.get_ok.mpr (counterAt_some h)
  cases hslice : guestSlice w.kernel.memory buf len with
  | error code =>
    have hneg := guestSlice_error_neg hslice
    exact hfails code w (by omega) (by simp only [read, hfd, hslice]) h
  | ok old =>
    by_cases hlen : len = 0
    · subst hlen
      exact hfails 0 w (by decide) (by simp only [read, hfd, hslice, if_true]) h
    · obtain ⟨out, e', hout, hcases⟩ := @readFrom_counter fd w e len.toNat
      rcases hcases with ⟨rfl, hroom, hzero⟩ | ⟨n, rfl, hn, rfl⟩
      · obtain ⟨memory, hcopy⟩ := copy_room (toNeBytes e.counter) (FdSets.Fits.of_slice hslice)
          (by rw [toNeBytes_length]; exact hroom)
        have hread : read sock w fd' buf len = (8, { w.setEventFd fd e' with kernel.memory := memory }) := by
          have hcopy' : guestCopy (w.setEventFd fd e').kernel.memory buf len (toNeBytes e.counter) =
              .ok memory := hcopy
          simp only [read, hfd, hslice, hlen, if_false, hget, hout, deliver, hcopy', toNeBytes_length]
          rfl
        have hnew : counterAt fd { w.setEventFd fd e' with kernel.memory := memory } = some e' := setEventFd_counter
        simp only [received, sent, hread, hfd, h, Option.isSome_some, and_self, if_true, wordAt_copy hcopy, hnew]
        exact ⟨⟨by simp [held, hzero], by simp [held, hzero], by simp⟩, by simp⟩
      · refine hfails n (w.setEventFd fd e') hn ?_ setEventFd_counter
        simp only [read, hfd, hslice, hlen, if_false, hget, hout, deliver]

theorem counted_write (bytes : List UInt8) (hlen : 8 ≤ bytes.length) :
    (e.write bytes).1 = 8 ∧
      Counted (some e) (some (e.write bytes).2) 0 (fromNeBytes (bytes.take 8)).toNat := by
  have hmin (n : Nat) : (UInt64.ofNat (min n (2 ^ 64 - 1))).toNat = min n (2 ^ 64 - 1) :=
    UInt64.toNat_ofNat_of_lt' (by simp [UInt64.size])
  simp only [EventFdInner.write, if_neg (Nat.not_lt.mpr hlen)]
  refine ⟨trivial, ⟨?_, fun _ h => ?_, by simp⟩, by simp⟩
  all_goals
    simp only [held, Option.elim, hmin] at *
    omega

theorem write_counter (h : counterAt fd w = some e) (hfd : u32Fd fd' = some fd) (buf len : Int) :
    Counted (some e) (counterAt fd (write sock w fd' buf len).2)
      (received sock fd w (.io (.write fd' buf len))) (sent sock fd w (.io (.write fd' buf len))) := by
  have hfails (n : Int) (w' : World) (hn : n ≠ 8) (heq : write sock w fd' buf len = (n, w'))
      (hw : counterAt fd w' = some e) :
      Counted (some e) (counterAt fd (write sock w fd' buf len).2)
        (received sock fd w (.io (.write fd' buf len))) (sent sock fd w (.io (.write fd' buf len))) := by
    simp only [received, sent, heq, hn, and_false, if_false, hw]
    exact .same _
  have hget : w.kernel.fds.get fd = .ok (.eventFd e) := FdTable.get_ok.mpr (counterAt_some h)
  cases hslice : guestSlice w.kernel.memory buf len with
  | error code =>
    have hneg := guestSlice_error_neg hslice
    exact hfails code w (by omega) (by simp only [write, hfd, hslice]) h
  | ok bytes =>
    by_cases hlen : bytes.length = 0
    · exact hfails 0 w (by decide) (by simp only [write, hfd, hslice, hlen, if_true]) h
    · have hwrite : write sock w fd' buf len = ((e.write bytes).1, w.setEventFd fd (e.write bytes).2) := by
        simp only [write, hfd, hslice, hlen, if_false, hget, writeTo, Option.getD_some]
      by_cases hroom : 8 ≤ bytes.length
      · obtain ⟨hvalue, hcounted⟩ := counted_write (e := e) bytes hroom
        simp only [received, sent, hwrite, hfd, hvalue, h, Option.isSome_some, and_self, if_true,
          wordAt_take hslice hroom, setEventFd_counter]
        exact hcounted
      · have hsmall : e.write bytes = (-EINVAL, e) := by
          simp only [EventFdInner.write, if_pos (Nat.lt_of_not_le hroom)]
        rw [hsmall] at hwrite
        exact hfails (-EINVAL) (w.setEventFd fd e) (by decide) hwrite setEventFd_counter

theorem call_counted (fd : UInt32) (hsock : sock.KeepsTable) (c : Call) :
    Counted (counterAt fd w) (counterAt fd (step sock w c).2) (received sock fd w (.io c))
      (sent sock fd w (.io c)) := by
  have hkeeps (hfds : (step sock w c).2.kernel.fds = w.kernel.fds) :
      Counted (counterAt fd w) (counterAt fd (step sock w c).2) 0 0 := by
    have hsame : counterAt fd (step sock w c).2 = counterAt fd w := counterAt_congr (by rw [hfds])
    rw [hsame]
    exact .same _
  have hwhere (fd' : Int) : Elsewhere fd w fd' ∨ ∃ e, counterAt fd w = some e ∧ u32Fd fd' = some fd := by
    cases hc : counterAt fd w with
    | none => exact .inl (.inl hc)
    | some e => exact (em (u32Fd fd' = some fd)).elim (fun h => .inr ⟨e, rfl, h⟩) fun h => .inl (.inr h)
  cases c with
  | store ptr bytes => exact hkeeps rfl
  | read fd' buf len =>
    obtain hother | ⟨e, he, hfd⟩ := hwhere fd'
    · exact read_elsewhere hsock hother buf len
    · rw [he]
      exact read_counter he hfd buf len
  | write fd' buf len =>
    obtain hother | ⟨e, he, hfd⟩ := hwhere fd'
    · exact write_elsewhere hsock hother buf len
    · rw [he]
      exact write_counter he hfd buf len
  | lseek fd' offset whence =>
    refine hkeeps ?_
    simp only [step, lseek]
    split
    · rfl
    · split <;> rfl
  | setfl fd' arg =>
    refine hkeeps ?_
    simp only [step, fcntlSetfl]
    split
    · rfl
    · split
      · rfl
      · rename_i r hr
        cases r <;> rfl

-- ---------------------------------------------------------------------------
-- Runs
-- ---------------------------------------------------------------------------

theorem not_counter (h : r.Shared) : some r ≠ some (.eventFd e) := by
  rintro ⟨⟩
  exact h

theorem shared_of_cloned {t : FdTable} (hr : t.cloned old = .ok r) : r.Shared := by
  obtain ⟨r', hr', -, hshared⟩ | hr' := t.cloned_cases old
  · obtain rfl := Except.ok.inj (hr.symm.trans hr')
    exact hshared
  · cases hr.symm.trans hr'

/-- What a call of the table does to one descriptor: nothing; or the call names it or it was
free, and it stands for no counter afterwards. -/
def Rebound (t : FdTable) (c : FdCall) (t' : FdTable) (fd : UInt32) : Prop :=
  t'.table.get? fd = t.table.get? fd ∨
    (fd ∈ c.target ∨ t.table.get? fd = none) ∧ ∀ e, t'.table.get? fd ≠ some (.eventFd e)

variable {t t' : FdTable}

theorem Rebound.bind {fd new : UInt32} (hnew : new ∈ c.target ∨ t.table.get? new = none) (hr : r.Shared)
    (ht : ∀ x, t'.table.get? x = if x = new then some r else t.table.get? x) : Rebound t c t' fd := by
  by_cases hfd : fd = new
  · subst hfd
    refine .inr ⟨hnew, fun e => ?_⟩
    rw [ht, if_pos rfl]
    exact not_counter hr
  · exact .inl ((ht fd).trans (if_neg hfd))

theorem dup_rebound (hc : c.source = some oldfd) (h : FdCall.run t c = some (n, t')) : Rebound t c t' fd := by
  cases dup_cases t hc with
  | refused e _ hrun | itself _ hrun =>
    cases h.symm.trans hrun
    exact .inl rfl
  | named old new r _ hr hnew _ hrun =>
    cases h.symm.trans hrun
    exact .bind (.inl hnew) (shared_of_cloned hr) (replaced_get? t new r _)
  | searched old r _ hr _ _ hrun =>
    obtain ⟨new, hfree, hpair⟩ := Option.map_eq_some_iff.mp (hrun.symm.trans h)
    cases hpair
    exact .bind (.inr (firstFree_some hfree).1) (shared_of_cloned hr) fun x => HashMap.get?_insert ..

theorem close_rebound (fd' : Int) : Rebound t (.close fd') (close t fd').2 fd := by
  unfold close
  split
  · exact .inl rfl
  · rename_i f hf
    have hget := (close_cases (t := t) f).1 fd
    split
    · rename_i hok
      rw [hok] at hget
      by_cases hfd : fd = f
      · subst hfd
        refine .inr ⟨.inl hf, fun e he => ?_⟩
        cases ((if_pos rfl).symm.trans hget.symm).trans he
      · exact .inl (hget.trans (if_neg hfd))
    · exact .inl rfl

theorem table_rebound (fd : UInt32) (hopens : Action.OpensNone (.table c)) (h : FdCall.run t c = some (n, t')) :
    Rebound t c t' fd := by
  cases c with
  | insert r cloexec => exact hopens.elim
  | dup | dup2 | dup3 | dupfd => exact dup_rebound rfl h
  | setfd fd on =>
    cases h
    exact .inl rfl
  | close fd' =>
    obtain rfl : (close t fd').2 = t' := congrArg Prod.snd (Option.some.inj h)
    exact close_rebound fd'

theorem table_balanced (fd : UInt32) (hopens : Action.OpensNone (.table c)) (h : c.run w.kernel.fds = some (n, t)) :
    Balanced (counterAt fd w) (counterAt fd { w with kernel.fds := t }) 0 0 ∧
      (fd ∉ c.target → (counterAt fd w).isSome → (counterAt fd { w with kernel.fds := t }).isSome) := by
  obtain hsame | ⟨hnamed, hother⟩ := table_rebound fd hopens h
  · have heq : counterAt fd { w with kernel.fds := t } = counterAt fd w := counterAt_congr hsame
    rw [heq]
    exact ⟨.same _, fun _ hsome => hsome⟩
  · have hnone : counterAt fd { w with kernel.fds := t } = none :=
      Option.eq_none_iff_forall_ne_some.mpr fun e he => hother e (counterAt_some he)
    rw [hnone]
    refine ⟨.lost _, fun hfd hsome => ?_⟩
    have hfree : w.kernel.fds.table.get? fd = none := hnamed.resolve_left hfd
    simp [counterAt, hfree] at hsome

theorem action_balanced (fd : UInt32) (hsock : sock.KeepsTable) {a : Action} (hopens : a.OpensNone)
    (h : next sock w a = some w') :
    Balanced (counterAt fd w) (counterAt fd w') (received sock fd w a) (sent sock fd w a) ∧
      (fd ∉ a.target → (counterAt fd w).isSome → (counterAt fd w').isSome) := by
  cases a with
  | io c =>
    cases h
    have hstep := call_counted (w := w) fd hsock c
    exact ⟨hstep.toBalanced, fun _ => hstep.kept⟩
  | table c =>
    obtain ⟨t, ht, rfl⟩ := Option.map_eq_some_iff.mp h
    obtain ⟨⟨n, t⟩, hrun, rfl⟩ := Option.map_eq_some_iff.mp ht
    exact table_balanced fd hopens hrun

/-- By induction on the actions; what one leaves in the counter the rest starts with. -/
theorem run_balanced (fd : UInt32) (hsock : sock.KeepsTable) {acts : List Action}
    (hopens : ∀ a ∈ acts, a.OpensNone) (h : runFrom (next sock) w acts = some w') :
    Balanced (counterAt fd w) (counterAt fd w') (total sock (received sock fd) w acts)
        (total sock (sent sock fd) w acts) ∧
      ((∀ a ∈ acts, fd ∉ a.target) → (counterAt fd w).isSome → (counterAt fd w').isSome) := by
  induction acts generalizing w with
  | nil =>
    cases h
    exact ⟨.same _, fun _ hsome => hsome⟩
  | cons a rest ih =>
    obtain ⟨w₁, h₁, h⟩ := Option.bind_eq_some_iff.mp h
    obtain ⟨hstep, hkept⟩ := action_balanced fd hsock (hopens a List.mem_cons_self) h₁
    obtain ⟨hrest, hkept'⟩ := ih (fun b hb => hopens b (List.mem_cons_of_mem a hb)) h
    refine ⟨?_, fun htarget hsome => ?_⟩
    · simp only [total, history_cons h₁, List.sum_append, List.sum_singleton]
      exact hstep.trans hrest
    · exact hkept' (fun b hb => htarget b (List.mem_cons_of_mem a hb))
        (hkept (htarget a List.mem_cons_self) hsome)

end

/-- A new counter never gives out more than it started with and was given. As long as no call
closes or replaces its descriptor all of it that was not yet read is still there, unless the
sum has reached the largest word. -/
theorem counter_conserved (sock : SocketCalls) (hsock : sock.KeepsTable) (k : Kernel) (fs : HostFs)
    (initval flags : Int) {acts : List Action} (hopens : ∀ a ∈ acts, a.OpensNone)
    (hrun : runFrom (next sock) { kernel := (eventfd2 k initval flags).2, fs } acts = some w') :
    let fd := k.fds.nextFd
    let w : World := { kernel := (eventfd2 k initval flags).2, fs }
    let got := total sock (received sock fd) w acts
    let given := (UInt64.ofInt initval).toNat + total sock (sent sock fd) w acts
    got + held (counterAt fd w') ≤ given ∧
      ((counterAt fd w').isSome → given < 2 ^ 64 → got + held (counterAt fd w') = given) ∧
      ((∀ a ∈ acts, fd ∉ a.target) → (counterAt fd w').isSome) := by
  have hnew : counterAt k.fds.nextFd { kernel := (eventfd2 k initval flags).2, fs } =
      some { counter := UInt64.ofInt initval, notify := k.cells.newNotify.1
             nonblock := BitVec.ofInt 32 flags &&& EFD_NONBLOCK ≠ 0 } := by
    refine counterAt_of ?_
    simp [eventfd2, FdTable.insert, HashMap.get?_insert, ofBitVec_eq]
  obtain ⟨hbalance, hkept⟩ := run_balanced k.fds.nextFd hsock hopens hrun
  rw [hnew] at hbalance hkept
  exact ⟨hbalance.le, hbalance.eq, fun htarget => hkept htarget rfl⟩

theorem noSockets_keepsTable : noSockets.KeepsTable := ⟨fun _ _ _ _ => rfl, fun _ _ _ _ => rfl⟩

/-- Three is written to a counter of four and read with it, while another descriptor comes and
goes. -/
def countingCalls : List Action :=
  [.table (.dup2 0 5), .io (.store 0 (toNeBytes 3)), .io (.write 3 0 8), .io (.read 3 8 8), .table (.close 5)]

def countingKernel : Kernel :=
  (Kernel.new [] [] { root := "/", cwd := "/" } (Vector.replicate 32 0)).attachMemory .zeroPage

theorem counter_conserved_three : ∃ w',
    let fd := countingKernel.fds.nextFd
    let w : World := { kernel := (eventfd2 countingKernel 4 0).2, fs := ⟨fun _ => none⟩ }
    let got := total noSockets (received noSockets fd) w countingCalls
    let given := (UInt64.ofInt 4).toNat + total noSockets (sent noSockets fd) w countingCalls
    runFrom (next noSockets) w countingCalls = some w' ∧
      got + held (counterAt fd w') ≤ given ∧
      ((counterAt fd w').isSome → given < 2 ^ 64 → got + held (counterAt fd w') = given) ∧
      ((∀ a ∈ countingCalls, fd ∉ a.target) → (counterAt fd w').isSome) := by
  have hopens : ∀ a ∈ countingCalls, a.OpensNone := by
    simp [countingCalls, Action.OpensNone]
  have hrun : runFrom (next noSockets) { kernel := (eventfd2 countingKernel 4 0).2, fs := ⟨fun _ => none⟩ }
      countingCalls = some _ := rfl
  exact ⟨_, hrun, counter_conserved noSockets noSockets_keepsTable countingKernel ⟨fun _ => none⟩ 4 0 hopens hrun⟩

end EventFd

end EdgeLibos.Sys
