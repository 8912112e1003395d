import EdgeLibos.Lib.Traces
import EdgeLibos.Sys.SockAddrs

/-!
# Signals

Dispositions, the mask and the alternate stack, which are recorded and never delivered, and
the name of the thread. A call takes the new value of one of them from a record of the guest
and tells the old one in another, so a function can put back what it found: the idiom of a
critical section.
-/

namespace EdgeLibos.Sys

open Errno Lib
open FdSets (Fits SameSize slice_byteAt fits_iff guestCopy_fits guestCopy_fitted guestCopy_sameSize copy_slice)
open SockAddrs (slice_length slice_eq slice_congr slice_take copy_read copy_room slice_copy_disjoint)

namespace Signal

def SIG_BLOCK : Int := 0
def SIG_UNBLOCK : Int := 1
def SIG_SETMASK : Int := 2

def SS_DISABLE : Int32 := 2
def SIGALTSTACK_SIZE : Int := 24
def SS_FLAGS_OFF : Nat := 8

def SIGACTION_SIZE : Int := 32
def SIG_HANDLER_REAL_OFF : Nat := 0
def SIG_FLAGS_REAL_OFF : Nat := 4
def SIG_MASK_REAL_OFF : Nat := 8
def SIG_RESTORER_REAL_OFF : Nat := 24

/-- `SigAction::default()`. -/
def noAction : SigAction := { handler := 0, flags := 0, restorer := 0, mask := 0 }

def field (bytes : List UInt8) (off len : Nat) : List UInt8 := (bytes.drop off).take len

def actionAt (bytes : List UInt8) : SigAction where
  handler := (ofLe32 (field bytes SIG_HANDLER_REAL_OFF 4)).toUInt64
  flags := (ofLe32 (field bytes SIG_FLAGS_REAL_OFF 4)).toUInt64
  mask := ofLe64 (field bytes SIG_MASK_REAL_OFF 8)
  restorer := (ofLe32 (field bytes SIG_RESTORER_REAL_OFF 4)).toUInt64

/-- Handler, flags and mask lie side by side; what lies before and after the restorer is kept. -/
def writeAction (memory : Option MemoryKind) (ptr : Int) (a : SigAction) : Except Int (Option MemoryKind) := do
  let _ ← ownedOf memory
  let memory ← guestCopy memory ptr SIGACTION_SIZE
    (le32 a.handler.toUInt32 ++ le32 a.flags.toUInt32 ++ le64 a.mask)
  guestCopy memory (ptr + SIG_RESTORER_REAL_OFF) 4 (le32 a.restorer.toUInt32)

def setAction (s : SignalState) (signum : Int32) (a : SigAction) : SignalState :=
  { s with actions := s.actions.insert signum a }

def action (s : SignalState) (signum : Int32) : SigAction := (s.actions.get? signum).getD noAction

/-- The old value is told unless the pointer is null. -/
def tell (memory : Option MemoryKind) (ptr : Int) (written : Except Int (Option MemoryKind)) :
    Except Int (Option MemoryKind) :=
  if ptr ≠ 0 then written else .ok memory

def rtSigaction (k : Kernel) (signum act oldact : Int) : Int × Kernel :=
  let signum := Int32.ofInt signum
  if ¬ (1 ≤ signum ∧ signum ≤ 64) then (-EINVAL, k)
  else
    match tell k.memory oldact (writeAction k.memory oldact (action k.signals signum)) with
    | .error e => (e, k)
    | .ok memory =>
      let k := { k with memory }
      if act ≠ 0 then
        match guestSlice memory act SIGACTION_SIZE with
        | .error e => (e, k)
        | .ok bytes => (0, { k with signals := setAction k.signals signum (actionAt bytes) })
      else (0, k)

/-- The mask that a request makes of the old one. -/
def maskBy (how : Int) (mask new : UInt64) : Option UInt64 :=
  if how = SIG_BLOCK then some (mask ||| new)
  else if how = SIG_UNBLOCK then some (mask &&& ~~~new)
  else if how = SIG_SETMASK then some new
  else none

def writeMask (memory : Option MemoryKind) (ptr : Int) (mask : UInt64) : Except Int (Option MemoryKind) := do
  let _ ← ownedOf memory
  guestCopy memory ptr 8 (le64 mask)

def rtSigprocmask (k : Kernel) (how set oldset : Int) : Int × Kernel :=
  match tell k.memory oldset (writeMask k.memory oldset k.signals.mask) with
  | .error e => (e, k)
  | .ok memory =>
    let k := { k with memory }
    if set ≠ 0 then
      match guestSlice memory set 8 with
      | .error e => (e, k)
      | .ok bytes =>
        match maskBy how k.signals.mask (ofLe64 bytes) with
        | some mask => (0, { k with signals := { k.signals with mask } })
        | none => (-EINVAL, k)
    else (0, k)

/-- The first 24 bytes of a recorded stack, or 24 zeros. -/
def oldStack : Option (List UInt8) → List UInt8
  | some record => record.take 24
  | none => List.replicate 24 0

/-- A stack that is disabled is not recorded. -/
def recordedStack (bytes : List UInt8) : Option (List UInt8) :=
  if (ofLe32 (field bytes SS_FLAGS_OFF 4)).toInt32 &&& SS_DISABLE ≠ 0 then none else some bytes

def sigaltstack (k : Kernel) (ss oldSs : Int) : Int × Kernel :=
  match tell k.memory oldSs (guestCopy k.memory oldSs SIGALTSTACK_SIZE (oldStack k.signals.altStack)) with
  | .error e => (e, k)
  | .ok memory =>
    let k := { k with memory }
    if ss ≠ 0 then
      match guestSlice memory ss SIGALTSTACK_SIZE with
      | .error e => (e, k)
      | .ok bytes => (0, { k with signals := { k.signals with altStack := recordedStack bytes } })
    else (0, k)

def rtSigreturn : Int := 0

def PR_SET_NAME : Int32 := 15
def PR_GET_NAME : Int32 := 16
def PR_GET_DUMPABLE : Int32 := 3
def PR_SET_DUMPABLE : Int32 := 4
def PR_GET_NO_NEW_PRIVS : Int32 := 39
def PR_SET_NO_NEW_PRIVS : Int32 := 38

/-- A name ends before its first NUL, and is filled up with zeros. -/
def cutName (bytes : List UInt8) : Vector UInt8 16 :=
  .ofFn fun i => if i < (bytes.takeWhile (· ≠ 0)).length then bytes.getD i 0 else 0

def prctl (k : Kernel) (option arg2 : Int) : Int × Kernel :=
  let option := Int32.ofInt option
  if option = PR_SET_NAME then
    if arg2 = 0 then (-EINVAL, k)
    else
      match guestSlice k.memory arg2 16 with
      | .error e => (e, k)
      | .ok bytes => (0, { k with comm := cutName bytes })
  else if option = PR_GET_NAME then
    if arg2 = 0 then (-EINVAL, k)
    else
      match guestCopy k.memory arg2 16 k.comm.toList with
      | .error e => (e, k)
      | .ok memory => (0, { k with memory })
  else if option = PR_GET_DUMPABLE then (0, k)
  else if option = PR_SET_DUMPABLE then (0, k)
  else if option = PR_GET_NO_NEW_PRIVS then (1, k)
  else if option = PR_SET_NO_NEW_PRIVS then (0, k)
  else (-EINVAL, k)

-- ---------------------------------------------------------------------------
-- A guest's calls
-- ---------------------------------------------------------------------------

inductive Call
  | store (ptr : Int) (bytes : List UInt8)
  | sigaction (signum act oldact : Int)
  | sigprocmask (how set oldset : Int)
  | altstack (ss oldSs : Int)
  | control (option arg2 : Int)
  | sigreturn
  deriving DecidableEq, Repr

def step (k : Kernel) : Call → Int × Kernel
  | .store ptr bytes =>
    let (n, memory) := Sys.store k.memory ptr bytes
    (n, { k with memory })
  | .sigaction signum act oldact => rtSigaction k signum act oldact
  | .sigprocmask how set oldset => rtSigprocmask k how set oldset
  | .altstack ss oldSs => sigaltstack k ss oldSs
  | .control option arg2 => prctl k option arg2
  | .sigreturn => (rtSigreturn, k)

/-- A call shows its value and the memory that it leaves. -/
def next (k : Kernel) (c : Call) : Option ((Int × Option MemoryKind) × Kernel) :=
  let (n, k) := step k c
  some ((n, k.memory), k)

variable {memory : Option MemoryKind} {bytes : List UInt8}

-- ---------------------------------------------------------------------------
-- Memory around a call
-- ---------------------------------------------------------------------------

section
variable {memory' memory'' : Option MemoryKind} {ptr len lo hi : Int} {new : List UInt8}

/-- Memory of the same size, with the same bytes between two places. -/
structure Preserves (memory memory' : Option MemoryKind) (lo hi : Int) : Prop where
  size : SameSize memory memory'
  keeps : ∀ p n bytes, lo ≤ p → p + n ≤ hi → guestSlice memory p n = .ok bytes → guestSlice memory' p n = .ok bytes

namespace Preserves

theorem refl (memory : Option MemoryKind) (lo hi : Int) : Preserves memory memory lo hi :=
  ⟨.refl memory, fun _ _ _ _ _ h => h⟩

theorem trans (h : Preserves memory memory' lo hi) (h' : Preserves memory' memory'' lo hi) :
    Preserves memory memory'' lo hi :=
  ⟨h.size.trans h'.size, fun p n bytes hlo hhi hs => h'.keeps p n bytes hlo hhi (h.keeps p n bytes hlo hhi hs)⟩

theorem mono (h : Preserves memory memory' lo hi) (hlo : lo ≤ lo') (hhi : hi' ≤ hi) :
    Preserves memory memory' lo' hi' :=
  ⟨h.size, fun p n bytes hp hn => h.keeps p n bytes (hlo.trans hp) (hn.trans hhi)⟩

theorem of_copy (h : guestCopy memory ptr len new = .ok memory') (hout : hi ≤ ptr ∨ ptr + len ≤ lo) :
    Preserves memory memory' lo hi := by
  refine ⟨guestCopy_sameSize h, fun p n bytes hlo hhi hs => ?_⟩
  apply slice_copy_disjoint hs h
  omega

end Preserves

theorem slice_field (h : guestSlice memory ptr len = .ok bytes) (hn : off + n ≤ len.toNat) :
    guestSlice memory (ptr + off) n = .ok (field bytes off n) := by
  have hlen := slice_length h
  obtain ⟨mem, -, hptr, hpos, -⟩ := fits_iff.mp (Fits.of_slice h)
  refine slice_eq (Fits.part (Fits.of_slice h) (by omega) (by omega) (by omega)) ?_ ?_
  · simp [field, hlen]
    omega
  · intro i hi
    have hplace : (ptr + off).toNat + i = ptr.toNat + (off + i) := by omega
    have hin : i < n := hi
    rw [hplace, ← slice_byteAt h (by omega), field, List.getElem?_take_of_lt hin, List.getElem?_drop]

end

-- ---------------------------------------------------------------------------
-- Records
-- ---------------------------------------------------------------------------

/-- A `struct sigaction` of the guest. -/
structure Handler where
  handler : UInt32
  flags : UInt32
  mask : UInt64
  restorer : UInt32
  deriving DecidableEq, Repr

namespace Handler

def encode (h : Handler) : List UInt8 :=
  le32 h.handler ++ le32 h.flags ++ le64 h.mask ++ List.replicate 8 0 ++ le32 h.restorer ++ List.replicate 4 0

def widen (h : Handler) : SigAction where
  handler := h.handler.toUInt64
  flags := h.flags.toUInt64
  restorer := h.restorer.toUInt64
  mask := h.mask

def default : Handler := { handler := 0, flags := 0, mask := 0, restorer := 0 }

theorem widen_default : default.widen = noAction := rfl

@[simp] theorem encode_length (h : Handler) : h.encode.length = 32 := by simp [encode]

end Handler

theorem ofLe32_le32 (v : UInt32) : ofLe32 (le32 v) = v := by
  rw [ofLe32, FdSets.leValue_le32, UInt32.ofNat_toNat]


theorem field_field (bytes : List UInt8) (h : b + m ≤ n) : field (field bytes a n) b m = field bytes (a + b) m := by
  rw [field, field, field, List.drop_take, List.take_take, List.drop_drop, Nat.min_eq_left (by omega)]

theorem actionAt_words {bytes : List UInt8} {h : Handler}
    (hwords : field bytes 0 16 = le32 h.handler ++ le32 h.flags ++ le64 h.mask)
    (hword : field bytes 24 4 = le32 h.restorer) : actionAt bytes = h.widen := by
  have hpart (b m : Nat) (hle : b + m ≤ 16) :
      field bytes b m = field (le32 h.handler ++ le32 h.flags ++ le64 h.mask) b m := by
    rw [← hwords, field_field bytes hle, Nat.zero_add]
  rw [actionAt, hpart _ 4 (by decide), hpart _ 4 (by decide), hpart _ 8 (by decide), SIG_RESTORER_REAL_OFF, hword]
  simp [field, Handler.widen, SIG_HANDLER_REAL_OFF, SIG_FLAGS_REAL_OFF, SIG_MASK_REAL_OFF, List.drop_append,
    List.drop_eq_nil_of_le, List.take_of_length_le, ofLe32_le32, ofLe64_le64]

theorem actionAt_encode (h : Handler) : actionAt h.encode = h.widen := by
  apply actionAt_words
  · simp [field, Handler.encode, List.take_append, List.take_of_length_le]
  · simp [field, Handler.encode, List.drop_append, List.drop_eq_nil_of_le]

/-- Whatever is read is an action that the record can hold. -/
theorem actionAt_widen (bytes : List UInt8) : ∃ h : Handler, actionAt bytes = h.widen :=
  ⟨⟨ofLe32 (field bytes SIG_HANDLER_REAL_OFF 4), ofLe32 (field bytes SIG_FLAGS_REAL_OFF 4),
    ofLe64 (field bytes SIG_MASK_REAL_OFF 8), ofLe32 (field bytes SIG_RESTORER_REAL_OFF 4)⟩, rfl⟩

/-- The old value is written to `ptr`, and nothing else. -/
structure Saved (memory memory' : Option MemoryKind) (ptr len : Int) (P : List UInt8 → Prop) : Prop where
  record : ∃ bytes, guestSlice memory' ptr len = .ok bytes ∧ P bytes
  rest : ∀ lo hi, hi ≤ ptr ∨ ptr + len ≤ lo → Preserves memory memory' lo hi

theorem saved_copy {ptr len : Int} {new : List UInt8} (hfits : Fits memory ptr len)
    (hnew : (new.length : Int) = len) :
    ∃ memory', guestCopy memory ptr len new = .ok memory' ∧ Saved memory memory' ptr len (· = new) := by
  obtain ⟨memory', h⟩ := guestCopy_fits new hfits hnew
  exact ⟨memory', h, ⟨new, copy_slice h hnew, rfl⟩, fun lo hi => .of_copy h⟩

theorem ownedOf_fits (h : Fits memory ptr len) : ∃ mem, ownedOf memory = .ok mem := by
  obtain ⟨mem, rfl, -⟩ := fits_iff.mp h
  exact ⟨mem, rfl⟩

theorem writeMask_saved {ptr : Int} (mask : UInt64) (hfits : Fits memory ptr 8) :
    ∃ memory', writeMask memory ptr mask = .ok memory' ∧
      Saved memory memory' ptr 8 fun bytes => ofLe64 bytes = mask := by
  obtain ⟨mem, hmem⟩ := ownedOf_fits hfits
  obtain ⟨memory', h, ⟨bytes, hs, rfl⟩, hrest⟩ := saved_copy hfits (show ((le64 mask).length : Int) = 8 by simp)
  refine ⟨memory', ?_, ⟨le64 mask, hs, ofLe64_le64 mask⟩, hrest⟩
  rw [writeMask, hmem]
  exact h

/-- An action that the record can hold is read back from the record, whatever lies around its
restorer. -/
theorem writeAction_saved {ptr : Int} (h : Handler) (hfits : Fits memory ptr SIGACTION_SIZE) :
    ∃ memory', writeAction memory ptr h.widen = .ok memory' ∧
      Saved memory memory' ptr SIGACTION_SIZE fun bytes => actionAt bytes = h.widen := by
  obtain ⟨mem, hmem⟩ := ownedOf_fits hfits
  obtain ⟨first, hfirst⟩ := copy_room (le32 h.handler ++ le32 h.flags ++ le64 h.mask) hfits
    (by simp [SIGACTION_SIZE])
  have hroom : Fits first (ptr + 24) 4 := guestCopy_sameSize hfirst _ _
    (hfits.part (by simp) (by simp) (by simp [SIGACTION_SIZE]))
  obtain ⟨memory', hsecond⟩ := guestCopy_fits (le32 h.restorer) hroom (by simp)
  obtain ⟨bytes, hs⟩ := (guestCopy_sameSize hsecond _ _ (guestCopy_sameSize hfirst _ _ hfits)).slice
  have hhead := slice_copy_disjoint (copy_read hfirst) hsecond (.inl (by simp))
  have hhead' := slice_field hs (show 0 + 16 ≤ SIGACTION_SIZE.toNat by simp [SIGACTION_SIZE])
  have htail := copy_slice hsecond (by simp)
  have htail' := slice_field hs (show 24 + 4 ≤ SIGACTION_SIZE.toNat by simp [SIGACTION_SIZE])
  have hwords : field bytes 0 16 = le32 h.handler ++ le32 h.flags ++ le64 h.mask := by
    have hsame : Except.ok (field bytes 0 16) = Except.ok (le32 h.handler ++ le32 h.flags ++ le64 h.mask) :=
      hhead'.symm.trans (by simpa using hhead)
    exact Except.ok.inj hsame
  have hword : field bytes 24 4 = le32 h.restorer := by simpa using htail'.symm.trans htail
  refine ⟨memory', ?_, ⟨bytes, hs, actionAt_words hwords hword⟩, fun lo hi hout => ?_⟩
  · rw [writeAction, hmem]
    show (guestCopy memory ptr SIGACTION_SIZE _ >>= _) = _
    simp only [Handler.widen, UInt32.toUInt32_toUInt64]
    rw [hfirst]
    exact hsecond
  · apply (Preserves.of_copy hfirst hout).trans
    apply Preserves.of_copy hsecond
    simp only [SIGACTION_SIZE] at hout
    omega

-- ---------------------------------------------------------------------------
-- What a guest can learn
-- ---------------------------------------------------------------------------

/-- The actions, the mask, the stack as it is told, and the name. -/
@[ext] structure View where
  action : Int32 → SigAction
  mask : UInt64
  stack : List UInt8
  name : Vector UInt8 16

def view (k : Kernel) : View where
  action := action k.signals
  mask := k.signals.mask
  stack := oldStack k.signals.altStack
  name := k.comm

/-- How a stack is told after it was given. -/
def toldStack (bytes : List UInt8) : List UInt8 := oldStack (recordedStack bytes)

/-- What can be told in full, and be given back as it was told. -/
structure View.Sound (v : View) : Prop where
  action : ∀ signum, ∃ h : Handler, v.action signum = h.widen
  length : v.stack.length = 24
  stack : toldStack v.stack = v.stack
  name : cutName v.name.toList = v.name

theorem view_setAction (k : Kernel) (signum : Int32) (a : SigAction) :
    view { k with signals := setAction k.signals signum a } =
      { view k with action := Function.update (view k).action signum a } := by
  ext other : 2
  · simp only [view, action, setAction, HashMap.get?_insert, Function.update_apply]
    split <;> simp_all
  · rfl
  · rfl
  · rfl

theorem toldStack_length (h : bytes.length = 24) : (toldStack bytes).length = 24 := by
  unfold toldStack recordedStack
  split <;> simp [oldStack, h]

theorem toldStack_again (h : bytes.length = 24) : toldStack (toldStack bytes) = toldStack bytes := by
  have hzeros : toldStack (List.replicate 24 0) = List.replicate 24 0 := by decide
  have htake : bytes.take 24 = bytes := List.take_of_length_le (by omega)
  by_cases hoff : (ofLe32 (field bytes SS_FLAGS_OFF 4)).toInt32 &&& SS_DISABLE ≠ 0
  · have htold : toldStack bytes = List.replicate 24 0 := by simp [toldStack, recordedStack, hoff, oldStack]
    rw [htold, hzeros]
  · have htold : toldStack bytes = bytes := by simp [toldStack, recordedStack, hoff, oldStack, htake]
    rw [htold, htold]

theorem cutName_toList (h : bytes.length = 16) : (cutName bytes).toList =
    bytes.takeWhile (· ≠ 0) ++ List.replicate (16 - (bytes.takeWhile (· ≠ 0)).length) 0 := by
  have hstart := List.takeWhile_prefix (· ≠ (0 : UInt8)) (l := bytes)
  have hle : (bytes.takeWhile (· ≠ 0)).length ≤ 16 := h ▸ hstart.length_le
  apply List.ext_getElem
  · rw [List.length_append, List.length_replicate, Nat.add_sub_cancel' hle, Vector.length_toList]
  · intro i hi hi'
    have hin : i < 16 := by simpa using hi
    simp only [cutName, Vector.getElem_toList, Vector.getElem_ofFn, List.getElem_append, List.getElem_replicate]
    split
    · rename_i hlt
      have hbound : i < bytes.length := by omega
      rw [hstart.getElem hlt, List.getD, List.getElem?_eq_getElem hbound, Option.getD_some]
    · rfl

theorem cutName_again (h : bytes.length = 16) : cutName (cutName bytes).toList = cutName bytes := by
  have hcut : (cutName bytes).toList.takeWhile (· ≠ 0) = bytes.takeWhile (· ≠ 0) := by
    have hall : ∀ b ∈ bytes.takeWhile (· ≠ 0), decide (b ≠ 0) = true := fun b hb =>
      (List.mem_takeWhile_imp hb :)
    rw [cutName_toList h, List.takeWhile_append_of_pos hall]
    simp
  apply Vector.toList_inj.mp
  rw [cutName_toList (by simp), hcut, cutName_toList h]

namespace View.Sound

theorem fresh {k : Kernel} (hsignals : k.signals = .new) (hname : k.comm = Vector.replicate 16 0) : (view k).Sound where
  action := fun _ => ⟨.default, by simp only [view, hsignals]; rfl⟩
  length := by simp only [view, hsignals]; rfl
  stack := by
    simp only [view, hsignals]
    decide
  name := by
    simp only [view, hname]
    decide

variable {v : View}

theorem setAction (hv : v.Sound) (signum : Int32) (h : Handler) :
    View.Sound { v with action := Function.update v.action signum h.widen } where
  action := by
    intro other
    simp only [Function.update_apply]
    split
    · exact ⟨h, rfl⟩
    · exact hv.action other
  length := hv.length
  stack := hv.stack
  name := hv.name

theorem setMask (hv : v.Sound) (mask : UInt64) : View.Sound { v with mask } :=
  ⟨hv.action, hv.length, hv.stack, hv.name⟩

theorem setStack (hv : v.Sound) (h : bytes.length = 24) : View.Sound { v with stack := toldStack bytes } :=
  ⟨hv.action, toldStack_length h, toldStack_again h, hv.name⟩

theorem setName (hv : v.Sound) (h : bytes.length = 16) : View.Sound { v with name := cutName bytes } :=
  ⟨hv.action, hv.length, hv.stack, cutName_again h⟩

end View.Sound

-- ---------------------------------------------------------------------------
-- Putting back what was found
-- ---------------------------------------------------------------------------

/-- A function that sets one of them for as long as it runs. -/
inductive Bracket
  | handling (signum : Int) (handler : Handler)
  | blocking (set : UInt64)
  | onStack (stack : Vector UInt8 24)
  | named (name : Vector UInt8 16)

namespace Bracket

def size : Bracket → Nat
  | .handling _ _ => 32
  | .blocking _ => 8
  | .onStack _ => 24
  | .named _ => 16

def record : Bracket → List UInt8
  | .handling _ handler => handler.encode
  | .blocking set => le64 set
  | .onStack stack => stack.toList
  | .named name => name.toList

/-- What sets, from the record at `ptr`, and saves at `old`. The name takes two calls. -/
def set (b : Bracket) (k : Kernel) (ptr old : Int) : Int × Kernel :=
  match b with
  | .handling signum _ => rtSigaction k signum ptr old
  | .blocking _ => rtSigprocmask k SIG_BLOCK ptr old
  | .onStack _ => sigaltstack k ptr old
  | .named _ =>
    match prctl k PR_GET_NAME.toInt old with
    | (0, k) => prctl k PR_SET_NAME.toInt ptr
    | failed => failed

/-- The call that puts back what was saved. -/
def reset (b : Bracket) (k : Kernel) (old : Int) : Int × Kernel :=
  match b with
  | .handling signum _ => rtSigaction k signum old 0
  | .blocking _ => rtSigprocmask k SIG_SETMASK old 0
  | .onStack _ => sigaltstack k old 0
  | .named _ => prctl k PR_SET_NAME.toInt old

def Valid : Bracket → Prop
  | .handling signum _ => 1 ≤ Int32.ofInt signum ∧ Int32.ofInt signum ≤ 64
  | _ => True

/-- What holds within. -/
def apply (b : Bracket) (v : View) : View :=
  match b with
  | .handling signum handler => { v with action := Function.update v.action (Int32.ofInt signum) handler.widen }
  | .blocking set => { v with mask := v.mask ||| set }
  | .onStack stack => { v with stack := toldStack stack.toList }
  | .named name => { v with name := cutName name.toList }

/-- What a record tells that brings `v` back. -/
def Saves (b : Bracket) (v : View) (bytes : List UInt8) : Prop :=
  match b with
  | .handling signum _ => actionAt bytes = v.action (Int32.ofInt signum)
  | .blocking _ => ofLe64 bytes = v.mask
  | .onStack _ => bytes = v.stack
  | .named _ => bytes = v.name.toList

variable {k : Kernel} {v : View} {ptr old : Int} (b : Bracket)

theorem record_length : b.record.length = b.size := by
  cases b <;> simp [record, size]

theorem size_le : b.size ≤ 32 := by
  cases b <;> simp [size]

theorem apply_sound (hv : v.Sound) : (b.apply v).Sound := by
  cases b with
  | handling signum handler => exact hv.setAction _ handler
  | blocking set => exact hv.setMask _
  | onStack stack => exact hv.setStack (by simp)
  | named name => exact hv.setName (by simp)

theorem prctl_setName (k : Kernel) (hptr : ptr ≠ 0) (hread : guestSlice k.memory ptr 16 = .ok bytes) :
    prctl k PR_SET_NAME.toInt ptr = (0, { k with comm := cutName bytes }) := by
  simp [prctl, PR_SET_NAME, hptr, hread]

theorem prctl_getName {memory : Option MemoryKind} (hptr : ptr ≠ 0)
    (hwrite : guestCopy k.memory ptr 16 k.comm.toList = .ok memory) :
    prctl k PR_GET_NAME.toInt ptr = (0, { k with memory }) := by
  simp [prctl, PR_SET_NAME, PR_GET_NAME, hptr, hwrite]

theorem set_saves (hvalid : b.Valid) (hv : (view k).Sound) (hptr : ptr ≠ 0) (hold : old ≠ 0)
    (hread : guestSlice k.memory ptr b.size = .ok b.record) (hfits : Fits k.memory old b.size)
    (hapart : ptr + b.size ≤ old) :
    ∃ k', b.set k ptr old = (0, k') ∧ view k' = b.apply (view k) ∧
      Saved k.memory k'.memory old b.size (b.Saves (view k)) := by
  cases b with
  | handling signum handler =>
    obtain ⟨found, hfound⟩ := hv.action (Int32.ofInt signum)
    obtain ⟨memory, hwrite, hsaved⟩ := writeAction_saved found hfits
    have hread' := (hsaved.rest ptr old (.inl le_rfl)).keeps _ _ _ le_rfl hapart hread
    refine ⟨{ k with memory, signals := setAction k.signals (Int32.ofInt signum) handler.widen }, ?_, ?_, ?_⟩
    · have hact : action k.signals (Int32.ofInt signum) = found.widen := hfound
      have hslice : guestSlice memory ptr SIGACTION_SIZE = .ok handler.encode := hread'
      simp [set, tell, rtSigaction, show 1 ≤ Int32.ofInt signum ∧ Int32.ofInt signum ≤ 64 from hvalid, hold, hptr,
        hact, hwrite, hslice, actionAt_encode]
    · exact view_setAction { k with memory } ..
    · exact ⟨hsaved.record.imp fun bytes h => ⟨h.1, h.2.trans hfound.symm⟩, hsaved.rest⟩
  | blocking new =>
    obtain ⟨memory, hwrite, hsaved⟩ := writeMask_saved k.signals.mask hfits
    have hread' := (hsaved.rest ptr old (.inl le_rfl)).keeps _ _ _ le_rfl hapart hread
    refine ⟨{ k with memory, signals.mask := k.signals.mask ||| new }, ?_, rfl, hsaved⟩
    have hslice : guestSlice memory ptr 8 = .ok (le64 new) := hread'
    simp [set, tell, rtSigprocmask, hold, hptr, hwrite, hslice, maskBy, ofLe64_le64]
  | onStack stack =>
    have hlen : ((oldStack k.signals.altStack).length : Int) = (onStack stack).size := by
      rw [show (oldStack k.signals.altStack).length = 24 from hv.length]
      rfl
    obtain ⟨memory, hwrite, hsaved⟩ := saved_copy hfits hlen
    have hread' := (hsaved.rest ptr old (.inl le_rfl)).keeps _ _ _ le_rfl hapart hread
    refine ⟨{ k with memory, signals.altStack := recordedStack stack.toList }, ?_, rfl, hsaved⟩
    have hslice : guestSlice memory ptr SIGALTSTACK_SIZE = .ok stack.toList := hread'
    have hcopy : guestCopy k.memory old SIGALTSTACK_SIZE (oldStack k.signals.altStack) = .ok memory := hwrite
    simp [set, tell, sigaltstack, hold, hptr, hcopy, hslice]
  | named name =>
    have hlen : ((k.comm.toList.length : Nat) : Int) = (named name).size := by simp [size]
    obtain ⟨memory, hwrite, hsaved⟩ := saved_copy hfits hlen
    have hread' : guestSlice memory ptr 16 = .ok name.toList :=
      (hsaved.rest ptr old (.inl le_rfl)).keeps _ _ _ le_rfl hapart hread
    refine ⟨{ k with memory, comm := cutName name.toList }, ?_, rfl, hsaved⟩
    simp only [set, prctl_getName hold hwrite]
    exact prctl_setName { k with memory } hptr hread'

/-- What a bracket set is put back from what it saved, and memory is left alone. -/
theorem reset_apply (hvalid : b.Valid) (hv : v.Sound) (hview : view k = b.apply v) (hold : old ≠ 0)
    (hread : guestSlice k.memory old b.size = .ok bytes) (hsaves : b.Saves v bytes) :
    ∃ k', b.reset k old = (0, k') ∧ view k' = v ∧ k'.memory = k.memory := by
  cases b with
  | handling signum handler =>
    refine ⟨{ k with signals := setAction k.signals (Int32.ofInt signum) (actionAt bytes) }, ?_, ?_, rfl⟩
    · have hslice : guestSlice k.memory old SIGACTION_SIZE = .ok bytes := hread
      simp [reset, tell, rtSigaction, show 1 ≤ Int32.ofInt signum ∧ Int32.ofInt signum ≤ 64 from hvalid, hold, hslice]
    · have hact : actionAt bytes = v.action (Int32.ofInt signum) := hsaves
      rw [view_setAction, hview, hact]
      simp [apply]
  | blocking new =>
    refine ⟨{ k with signals.mask := ofLe64 bytes }, ?_, ?_, rfl⟩
    · have hslice : guestSlice k.memory old 8 = .ok bytes := hread
      simp [reset, tell, rtSigprocmask, hold, hslice, maskBy, SIG_SETMASK, SIG_BLOCK, SIG_UNBLOCK]
    · have hmask : ofLe64 bytes = v.mask := hsaves
      show { view k with mask := ofLe64 bytes } = v
      rw [hview, hmask]
      simp only [apply]
  | onStack stack =>
    obtain rfl : bytes = v.stack := hsaves
    refine ⟨{ k with signals.altStack := recordedStack v.stack }, ?_, ?_, rfl⟩
    · have hslice : guestSlice k.memory old SIGALTSTACK_SIZE = .ok v.stack := hread
      simp [reset, tell, sigaltstack, hold, hslice]
    · show { view k with stack := toldStack v.stack } = v
      rw [hview, hv.stack]
      simp only [apply]
  | named name =>
    obtain rfl : bytes = v.name.toList := hsaves
    refine ⟨{ k with comm := cutName v.name.toList }, prctl_setName k hold hread, ?_, rfl⟩
    show { view k with name := cutName v.name.toList } = v
    rw [hview, hv.name]
    simp only [apply]

end Bracket

-- ---------------------------------------------------------------------------
-- Programs
-- ---------------------------------------------------------------------------

/-- A guest's function: it looks at its signals and stores, it runs a part of itself within a
bracket, or it is done. -/
inductive Program
  | done
  | work (stores : List (Nat × List UInt8)) (tail : Program)
  | within (bracket : Bracket) (body tail : Program)

/-- A frame holds the record that is given and the one that is saved. -/
def FRAME : Nat := 64

namespace Program

/-- How many brackets are open at once. -/
def depth : Program → Nat
  | .done => 0
  | .work _ tail => tail.depth
  | .within _ body tail => max (body.depth + 1) tail.depth

/-- The brackets are of signals that can be handled, and the stores go to memory outside the
frames that are in use, which lie from `sp + FRAME` to `top`. -/
def Valid (size top : Nat) (sp : Nat) : Program → Prop
  | .done => True
  | .work stores tail => (∀ s ∈ stores, s.1 + s.2.length ≤ size ∧ (s.1 + s.2.length ≤ sp + FRAME ∨ top ≤ s.1)) ∧
      tail.Valid size top sp
  | .within bracket body tail => bracket.Valid ∧ body.Valid size top (sp - FRAME) ∧ tail.Valid size top sp

def denote : Program → View → List View
  | .done, _ => []
  | .work _ tail, v => v :: tail.denote v
  | .within bracket body tail, v => body.denote (bracket.apply v) ++ tail.denote v

end Program

/-- A store that traps ends the guest. -/
def stored (k : Kernel) (ptr : Nat) (bytes : List UInt8) : Option Kernel :=
  match Sys.store k.memory ptr bytes with
  | (0, memory) => some { k with memory }
  | _ => none

def storeAll : List (Nat × List UInt8) → Kernel → Option Kernel
  | [], k => some k
  | (ptr, bytes) :: rest, k => (stored k ptr bytes).bind (storeAll rest)

/-- A call that fails ends the guest. -/
def succeeded (r : Int × Kernel) : Option Kernel := if r.1 = 0 then some r.2 else none

/-- The frame at `sp` takes the given record, and the saved one above it. -/
def Bracket.enter (b : Bracket) (sp : Nat) (k : Kernel) : Option Kernel :=
  (stored k sp b.record).bind fun k => succeeded (b.set k sp (sp + 32))

def Bracket.leave (b : Bracket) (sp : Nat) (k : Kernel) : Option Kernel := succeeded (b.reset k (sp + 32))

/-- A run on a stack that grows down: what the work saw, and the kernel it left. -/
def Program.exec : Program → Nat → Kernel → Option (List View × Kernel)
  | .done, _, k => some ([], k)
  | .work stores tail, sp, k =>
    (storeAll stores k).bind fun k' => (tail.exec sp k').map fun (seen, k'') => (view k :: seen, k'')
  | .within bracket body tail, sp, k =>
    (bracket.enter sp k).bind fun k => (body.exec (sp - FRAME) k).bind fun (seen, k) =>
      (bracket.leave sp k).bind fun k => (tail.exec sp k).map fun (rest, k) => (seen ++ rest, k)

section
variable {k : Kernel} {size top sp ptr : Nat}

theorem Fits.within (h : Fits memory 0 size) (hle : ptr + n ≤ size) : Fits memory ptr n := by
  have hend : (ptr : Int) + n ≤ size := by omega
  simpa using h.part (Int.natCast_nonneg ptr) (Int.natCast_nonneg n) hend

theorem stored_fits (h : Fits k.memory 0 size) (hle : ptr + bytes.length ≤ size) :
    ∃ memory, stored k ptr bytes = some { k with memory } ∧ Saved k.memory memory ptr bytes.length (· = bytes) := by
  obtain ⟨memory, hcopy, hsaved⟩ := saved_copy (Fits.within h hle) (rfl : (bytes.length : Int) = bytes.length)
  refine ⟨memory, ?_, hsaved⟩
  simp [stored, Sys.store, hcopy]

theorem storeAll_fits {stores : List (Nat × List UInt8)} (h : Fits k.memory 0 size)
    (hs : ∀ s ∈ stores, s.1 + s.2.length ≤ size ∧ (s.1 + s.2.length ≤ sp + FRAME ∨ top ≤ s.1)) :
    ∃ memory, storeAll stores k = some { k with memory } ∧ Preserves k.memory memory (sp + FRAME : Nat) top := by
  induction stores generalizing k with
  | nil => exact ⟨k.memory, rfl, .refl _ _ _⟩
  | cons s rest ih =>
    obtain ⟨hs, hrest⟩ := List.forall_mem_cons.mp hs
    obtain ⟨memory, hstored, hsaved⟩ := stored_fits h hs.1
    have hkept := hsaved.rest (sp + FRAME : Nat) top (by omega)
    obtain ⟨memory', hall, hkept'⟩ := ih (k := { k with memory }) (hkept.size _ _ h) hrest
    exact ⟨memory', by simp [storeAll, hstored, hall], hkept.trans hkept'⟩

theorem Bracket.enter_saves (b : Bracket) (hvalid : b.Valid) (hv : (view k).Sound)
    (h : Fits k.memory 0 size) (hsp : 0 < sp) (htop : sp + FRAME ≤ size) :
    ∃ k', b.enter sp k = some k' ∧ view k' = b.apply (view k) ∧
      (∃ bytes, guestSlice k'.memory (sp + 32) b.size = .ok bytes ∧ b.Saves (view k) bytes) ∧
      ∀ top, Preserves k.memory k'.memory (sp + FRAME : Nat) top := by
  have hsize := b.size_le
  have hrecord := b.record_length
  simp only [FRAME] at htop
  have hroom : sp + b.record.length ≤ size := by omega
  obtain ⟨first, hstored, ⟨bytes, hread, rfl⟩, hfirst⟩ := stored_fits h hroom
  have hgrown := (hfirst 0 0 (.inl (by omega))).size
  rw [hrecord] at hread hfirst
  have hold : sp + 32 + b.size ≤ size := by omega
  have hfits : Fits first (sp + 32) b.size := by exact_mod_cast Fits.within (hgrown _ _ h) hold
  obtain ⟨k', hset, hview, hsaved⟩ := b.set_saves (k := { k with memory := first })
    hvalid hv (by omega) (by omega) hread hfits (by omega)
  refine ⟨k', ?_, hview, hsaved.record, fun top => ?_⟩
  · simp [enter, hstored, hset, succeeded]
  · apply (hfirst _ _ (.inr _)).trans (hsaved.rest _ _ (.inr _))
    · simp [FRAME]
      omega
    · simp [FRAME]
      omega

theorem Bracket.leave_restores (b : Bracket) (hvalid : b.Valid) (hv : v.Sound) (hview : view k = b.apply v)
    (hread : guestSlice k.memory (sp + 32) b.size = .ok bytes) (hsaves : b.Saves v bytes) :
    ∃ k', b.leave sp k = some k' ∧ view k' = v ∧ k'.memory = k.memory := by
  obtain ⟨k', hreset, hback, hmemory⟩ := b.reset_apply hvalid hv hview (by omega) hread hsaves
  refine ⟨k', ?_, hback, hmemory⟩
  simp [leave, hreset, succeeded]

/-- By induction on the program: within a bracket the saved record lies in a frame that the
body leaves alone. -/
theorem Program.exec_denote (p : Program) (hp : p.Valid size top sp) (hv : (view k).Sound)
    (h : Fits k.memory 0 size) (hdepth : FRAME * p.depth ≤ sp) (hle : sp + FRAME ≤ top) (htop : top ≤ size) :
    ∃ k', p.exec sp k = some (p.denote (view k), k') ∧ view k' = view k ∧
      Preserves k.memory k'.memory (sp + FRAME : Nat) top := by
  induction p generalizing sp k with
  | done => exact ⟨k, rfl, rfl, .refl _ _ _⟩
  | work stores tail ih =>
    obtain ⟨hstores, htail⟩ := hp
    obtain ⟨memory, hall, hkept⟩ := storeAll_fits h hstores
    obtain ⟨k', hrun, hview, hkept'⟩ := ih (k := { k with memory }) htail hv (hkept.size _ _ h) hdepth hle
    have hseen : view { k with memory } = view k := rfl
    refine ⟨k', ?_, hview.trans hseen, hkept.trans hkept'⟩
    rw [hseen] at hrun
    simp [exec, denote, hall, hrun]
  | within b body tail ihbody ihtail =>
    obtain ⟨hvalid, hbody, htail⟩ := hp
    have hdeep : FRAME * (body.depth + 1) ≤ sp := le_trans (Nat.mul_le_mul_left _ (le_max_left ..)) hdepth
    have hflat : FRAME * tail.depth ≤ sp := le_trans (Nat.mul_le_mul_left _ (le_max_right ..)) hdepth
    have hroom : sp + 64 ≤ top := hle
    simp only [FRAME] at hdeep
    have hpos : 0 < sp := by omega
    have hframe : sp - FRAME + FRAME = sp := Nat.sub_add_cancel (by simp [FRAME]; omega)
    obtain ⟨k₁, henter, hview₁, ⟨bytes, hread, hsaves⟩, hkept₁⟩ :=
      b.enter_saves hvalid hv h hpos (hle.trans htop)
    have hkept₁ := hkept₁ top
    obtain ⟨k₂, hrun₂, hview₂, hkept₂⟩ := ihbody hbody (hview₁ ▸ b.apply_sound hv) (hkept₁.size _ _ h)
      (by simp [FRAME]; omega) (by omega)
    rw [hframe] at hkept₂
    have hsize := b.size_le
    have hread₂ := hkept₂.keeps _ _ _ (by omega) (by omega) hread
    obtain ⟨k₃, hleave, hview₃, hmemory⟩ := b.leave_restores hvalid hv (hview₂.trans hview₁) hread₂ hsaves
    have hwhole : Preserves k₁.memory k₃.memory (sp + FRAME : Nat) top := by
      rw [hmemory]
      exact hkept₂.mono (by simp) le_rfl
    have hkept := hkept₁.trans hwhole
    obtain ⟨k₄, hrun₄, hview₄, hkept₄⟩ := ihtail htail (hview₃ ▸ hv) (hkept.size _ _ h) hflat hle
    refine ⟨k₄, ?_, hview₄.trans hview₃, hkept.trans hkept₄⟩
    rw [hview₁] at hrun₂
    rw [hview₃] at hrun₄
    simp [exec, denote, henter, hrun₂, hleave, hrun₄]

end

-- ---------------------------------------------------------------------------
-- Every state that calls lead to
-- ---------------------------------------------------------------------------

theorem rtSigaction_sound {k : Kernel} (hv : (view k).Sound) (signum act oldact : Int) :
    (view (rtSigaction k signum act oldact).2).Sound := by
  simp only [rtSigaction]
  split
  · exact hv
  · split
    · exact hv
    · split
      · split
        · exact hv
        · rename_i memory _ _ _ bytes hs
          obtain ⟨h, hh⟩ := actionAt_widen bytes
          have hview := view_setAction { k with memory } (Int32.ofInt signum) (actionAt bytes)
          rw [hh] at hview ⊢
          exact (congrArg View.Sound hview).mpr (hv.setAction _ h)
      · exact hv

theorem rtSigprocmask_sound {k : Kernel} (hv : (view k).Sound) (how set oldset : Int) :
    (view (rtSigprocmask k how set oldset).2).Sound := by
  simp only [rtSigprocmask]
  split
  · exact hv
  · split
    · split
      · exact hv
      · split
        · exact hv.setMask _
        · exact hv
    · exact hv

theorem sigaltstack_sound {k : Kernel} (hv : (view k).Sound) (ss oldSs : Int) :
    (view (sigaltstack k ss oldSs).2).Sound := by
  simp only [sigaltstack]
  split
  · exact hv
  · split
    · split
      · exact hv
      · rename_i bytes hs
        exact hv.setStack (slice_length hs)
    · exact hv

theorem prctl_sound {k : Kernel} (hv : (view k).Sound) (option arg2 : Int) : (view (prctl k option arg2).2).Sound := by
  simp only [prctl]
  split
  · split
    · exact hv
    · split
      · exact hv
      · rename_i bytes hs
        exact hv.setName (slice_length hs)
  · split_ifs <;> try exact hv
    split <;> exact hv

theorem step_sound {k : Kernel} (hv : (view k).Sound) (c : Call) : (view (step k c).2).Sound := by
  cases c with
  | store ptr bytes => exact hv
  | sigaction signum act oldact => exact rtSigaction_sound hv signum act oldact
  | sigprocmask how set oldset => exact rtSigprocmask_sound hv how set oldset
  | altstack ss oldSs => exact sigaltstack_sound hv ss oldSs
  | control option arg2 => exact prctl_sound hv option arg2
  | sigreturn => exact hv

theorem reaches_sound {k₀ k : Kernel} (h₀ : k₀.signals = .new) (hname : k₀.comm = Vector.replicate 16 0)
    (h : Reaches (silent next) (fun _ _ => True) k₀ k) : (view k).Sound := by
  refine h.invariant (I := fun k => (view k).Sound) (.fresh h₀ hname) ?_
  rintro k c k' hv - hnext
  obtain rfl := Option.some.inj hnext
  exact step_sound hv c

/-- Whatever calls were made before, a function sees what its brackets say, and all that they
changed is as it was when it returns. -/
theorem brackets_restore (k₀ k : Kernel) (p : Program) (size top sp : Nat) (h₀ : k₀.signals = .new)
    (hname : k₀.comm = Vector.replicate 16 0) (h : Reaches (silent next) (fun _ _ => True) k₀ k)
    (hfits : Fits k.memory 0 size) (hp : p.Valid size top sp) (hdepth : FRAME * p.depth ≤ sp) (hle : sp + FRAME ≤ top) (htop : top ≤ size) :
    ∃ k', p.exec sp k = some (p.denote (view k), k') ∧ view k' = view k ∧
      Preserves k.memory k'.memory (sp + FRAME : Nat) top :=
  p.exec_denote hp (reaches_sound h₀ hname h) hfits hdepth hle htop

/-- An interrupt is handled, on another stack and under another name, where it is not blocked. -/
def interruptible : Program :=
  .within (.handling 2 { handler := 7, flags := 4, mask := 0, restorer := 9 })
    (.work []
      (.within (.onStack (Vector.replicate 24 1))
        (.within (.named (Vector.replicate 16 104)) (.within (.blocking 2) (.work [(8, [5])] .done) .done) .done) .done))
    (.work [] .done)

theorem brackets_restore_interruptible :
    let k := (Kernel.new [] [] { root := "/", cwd := "/" } (Vector.replicate 32 0)).attachMemory .zeroPage
    ∃ k', interruptible.exec 256 k = some (interruptible.denote (view k), k') ∧
      view k' = view k ∧ Preserves k.memory k'.memory (256 + FRAME : Nat) 320 :=
  brackets_restore _ _ interruptible 65536 320 256 rfl rfl .start
    (SockAddrs.zeroPage_fits (by decide) (by decide) (by decide))
    (by simp [Program.Valid, interruptible, Bracket.Valid, FRAME]) (by decide) (by decide) (by decide)

end Signal

end EdgeLibos.Sys
