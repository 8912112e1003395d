import EdgeLibos.Sys.Select

/-!
# What select reports

The bitmaps that `select` leaves, against what `poll` finds of each descriptor. The value
it returns counts descriptors that `poll` has an answer for, whatever the answer, and not
the bits that are set.
-/

namespace EdgeLibos.Sys.FdSets

open Errno Lib

def bitAt (memory : Option MemoryKind) (p : Nat) : Bool :=
  ((byteAt memory (p / 8)).getD 0).toNat.testBit (p % 8)

/-- Whether a descriptor is in a bitmap; there is none in a bitmap at 0. -/
def fdIsSet (memory : Option MemoryKind) (set : Int) (fd : Nat) : Bool :=
  set ≠ 0 && bitAt memory (8 * set.toNat + fd)

def Fits (memory : Option MemoryKind) (ptr len : Int) : Prop := (guestSlice memory ptr len).isOk = true

-- ---------------------------------------------------------------------------
-- Bits of memory
-- ---------------------------------------------------------------------------

theorem Fits.slice (h : Fits memory ptr len) : ∃ bytes, guestSlice memory ptr len = .ok bytes := by
  unfold Fits at h
  cases hs : guestSlice memory ptr len with
  | error e =>
    rw [hs] at h
    cases h
  | ok bytes => exact ⟨bytes, rfl⟩

theorem Fits.of_slice (h : guestSlice memory ptr len = .ok bytes) : Fits memory ptr len := by
  rw [Fits, h]
  rfl

theorem Fits.of_size (hptr : 0 ≤ ptr) (hlen : 0 ≤ len) (h : ptr.toNat + len.toNat ≤ LinearMemory.size mem) :
    Fits (some (.owned mem)) ptr len := by
  rw [Fits, guestSlice, if_neg (by omega)]
  simp only [ownedOf]
  rw [if_pos h]
  rfl

theorem fits_iff : Fits memory ptr len ↔
    ∃ mem, memory = some (.owned mem) ∧ 0 ≤ ptr ∧ 0 ≤ len ∧ ptr.toNat + len.toNat ≤ mem.size := by
  constructor
  · intro h
    obtain ⟨bytes, hs⟩ := h.slice
    obtain ⟨mem, hmem, hptr, hlen, hle, -⟩ := guestSlice_ok hs
    exact ⟨mem, hmem, hptr, hlen, hle⟩
  · rintro ⟨mem, rfl, hptr, hlen, hle⟩
    exact .of_size hptr hlen hle

def SameSize (memory memory' : Option MemoryKind) : Prop :=
  ∀ ptr len, Fits memory ptr len → Fits memory' ptr len

theorem SameSize.refl (memory : Option MemoryKind) : SameSize memory memory := fun _ _ h => h

theorem SameSize.trans (h : SameSize memory memory') (h' : SameSize memory' memory'') :
    SameSize memory memory'' :=
  fun ptr len hfits => h' ptr len (h ptr len hfits)

theorem Fits.part (h : Fits memory ptr n) (hi : 0 ≤ i) (hk : 0 ≤ len) (hn : i + len ≤ n) :
    Fits memory (ptr + i) len := by
  obtain ⟨bytes, hs⟩ := h.slice
  obtain ⟨mem, rfl, hptr, -, hfits, -⟩ := guestSlice_ok hs
  exact .of_size (by omega) hk (by omega)

theorem guestCopy_fitted (h : guestCopy memory ptr len new = .ok memory') :
    Fits memory ptr len ∧ new.length ≤ len.toNat ∧ ∀ p n, Fits memory' p n ↔ Fits memory p n := by
  unfold guestCopy at h
  split at h
  · cases h
  · split at h
    · cases h
    · rename_i hsign mem hmem
      obtain rfl := ownedOf_ok hmem
      split at h
      · rename_i hroom
        cases h
        refine ⟨.of_size (by omega) (by omega) hroom.1, hroom.2, fun p n => ?_⟩
        rw [fits_iff, fits_iff]
        simp [LinearMemory.write_size]
      · cases h

theorem guestCopy_sameSize (h : guestCopy memory ptr len new = .ok memory') : SameSize memory memory' :=
  fun p n hfits => ((guestCopy_fitted h).2.2 p n).mpr hfits

theorem guestCopy_fits (new : List UInt8) (h : Fits memory ptr len) (hnew : (new.length : Int) = len) :
    ∃ memory', guestCopy memory ptr len new = .ok memory' := by
  obtain ⟨_, mem', -, -, hcopy⟩ := guestCopy_of_fits h (le_of_eq hnew)
  exact ⟨_, hnew ▸ hcopy⟩

theorem slice_byteAt (h : guestSlice memory ptr len = .ok bytes) (hi : i < len.toNat) :
    bytes[i]? = byteAt memory (ptr.toNat + i) := by
  obtain ⟨mem, rfl, -, -, -, rfl⟩ := guestSlice_ok h
  rw [List.getElem?_take_of_lt hi, List.getElem?_drop]
  rfl

theorem slice_bits (h : guestSlice memory ptr len = .ok bytes) (hi : i < 8 * len.toNat) :
    bitOf bytes i = bitAt memory (8 * ptr.toNat + i) := by
  have hdiv : (8 * ptr.toNat + i) / 8 = ptr.toNat + i / 8 := by omega
  have hmod : (8 * ptr.toNat + i) % 8 = i % 8 := by omega
  rw [bitAt, hdiv, hmod, ← slice_byteAt h (by omega), bitOf, List.getD_eq_getElem?_getD]

theorem copy_bits (h : guestCopy memory ptr len new = .ok memory') (p : Nat) :
    bitAt memory' p =
      if Span ptr new.length (p / 8) then bitOf new (p - 8 * ptr.toNat) else bitAt memory p := by
  rw [bitAt, guestCopy_byteAt h]
  split
  · rename_i hspan
    have hdiv : (p - 8 * ptr.toNat) / 8 = p / 8 - ptr.toNat := by omega
    have hmod : (p - 8 * ptr.toNat) % 8 = p % 8 := by
      unfold Span at hspan
      omega
    rw [bitOf, hdiv, hmod, List.getD_eq_getElem?_getD]
  · rfl

theorem copy_slice (h : guestCopy memory ptr len new = .ok memory') (hlen : (new.length : Int) = len) :
    guestSlice memory' ptr len = .ok new := by
  unfold guestCopy at h
  split at h
  · cases h
  · rename_i hsign
    split at h
    · cases h
    · rename_i mem hmem
      split at h
      · rename_i hfits
        cases h
        have hwrite : ptr.toNat + new.length ≤ mem.size := by omega
        have hslice := guestSlice_of_load (LinearMemory.load_write hwrite) (le_refl _)
        rw [List.take_length] at hslice
        have hptr : ((ptr.toNat : Nat) : Int) = ptr := by omega
        rwa [hptr, hlen] at hslice
      · cases h

-- ---------------------------------------------------------------------------
-- Bitmaps
-- ---------------------------------------------------------------------------

/-- A bitmap that is there lies in memory. -/
def SetFits (memory : Option MemoryKind) (set : Int) : Prop := set ≠ 0 → Fits memory set 128

variable {set : Int}

theorem SetFits.of_sameSize (h : SetFits memory set) (hsize : SameSize memory memory') :
    SetFits memory' set :=
  fun hset => hsize set 128 (h hset)

theorem isSet_maskAt (h : SetFits memory set) (hfd : fd < 1024) :
    isSet (maskAt memory set) fd = fdIsSet memory set fd := by
  by_cases hset : set = 0
  · rw [maskAt, if_neg (not_not.mpr hset), fdIsSet, decide_eq_false (not_not.mpr hset), Bool.false_and]
    rfl
  · obtain ⟨bytes, hs⟩ := (h hset).slice
    have hmask : maskAt memory set = some bytes := by
      rw [maskAt, if_pos hset, show ((FD_SET_LONGS * 8 : Int)) = 128 from rfl, hs]
      rfl
    have hlen : ((bytes.drop (fd / 64 * 8)).take 8).length ≤ 8 := List.length_take_le ..
    have hpos : 8 * (fd / 64 * 8) + fd % 64 = fd := by omega
    have hbit : fd % 64 < 64 := Nat.mod_lt _ (by decide)
    rw [hmask, fdIsSet, decide_eq_true hset, Bool.true_and, ← slice_bits hs (by omega)]
    simp only [isSet]
    rw [wordBit_eq _ hbit, toNat_ofLe64 hlen, testBit_leValue, bitOf_word _ _ hbit, hpos]

theorem clearFdSet_bits (h : Fits memory set 128) :
    SameSize memory (clearFdSet memory set) ∧
      ∀ p, bitAt (clearFdSet memory set) p = if Span set 128 (p / 8) then false else bitAt memory p := by
  have hlen : (List.replicate 128 (0 : UInt8)).length = 128 := List.length_replicate
  obtain ⟨memory', hcopy⟩ := guestCopy_fits (List.replicate 128 0) h (by rw [hlen]; rfl)
  have hclear : clearFdSet memory set = memory' := by
    rw [clearFdSet, show ((FD_SET_LONGS * 8 : Int)) = 128 from rfl, show FD_SET_LONGS * 8 = 128 from rfl,
      hcopy]
    rfl
  rw [hclear]
  refine ⟨guestCopy_sameSize hcopy, fun p => ?_⟩
  have hzero (i : Nat) : bitOf (List.replicate 128 0) i = false := by
    rw [bitOf, List.getD_eq_getElem?_getD, List.getElem?_replicate]
    split <;> exact Nat.zero_testBit _
  rw [copy_bits hcopy, hlen, hzero]

theorem setFdBit_bits (h : Fits memory set 128) (hfd : fd < 1024) :
    SameSize memory (setFdBit memory set fd) ∧
      ∀ p, bitAt (setFdBit memory set fd) p = (bitAt memory p || decide (p = 8 * set.toNat + fd)) := by
  have hword : ¬ FD_SET_LONGS ≤ fd / 64 := by
    unfold FD_SET_LONGS
    omega
  have hpart : Fits memory (set + (fd / 64 * 8 : Nat)) 8 := h.part (by omega) (by decide) (by omega)
  obtain ⟨bytes, hs⟩ := hpart.slice
  have hlen : bytes.length = 8 := guestSlice_length hs
  have hbit : fd % 64 < 64 := Nat.mod_lt _ (by decide)
  obtain ⟨memory', hcopy⟩ := guestCopy_fits (le64 (setWordBit (ofLe64 bytes) (fd % 64))) hpart
    (by rw [le64_length]; rfl)
  have hset : setFdBit memory set fd = memory' := by
    simp only [setFdBit, if_neg hword, hs, hcopy]
    rfl
  obtain ⟨_, hs'⟩ := h.slice
  obtain ⟨-, -, hptr, -⟩ := guestSlice_ok hs'
  rw [hset]
  refine ⟨guestCopy_sameSize hcopy, fun p => ?_⟩
  rw [copy_bits hcopy, le64_length]
  by_cases hspan : Span (set + (fd / 64 * 8 : Nat)) 8 (p / 8)
  · have hpos : 8 * (set + (fd / 64 * 8 : Nat)).toNat + (p - 8 * (set + (fd / 64 * 8 : Nat)).toNat) = p := by
      unfold Span at hspan
      omega
    have hin : p - 8 * (set + (fd / 64 * 8 : Nat)).toNat < 8 * (8 : Int).toNat := by
      unfold Span at hspan
      omega
    have heq : fd % 64 = p - 8 * (set + (fd / 64 * 8 : Nat)).toNat ↔ p = 8 * set.toNat + fd := by
      unfold Span at hspan
      omega
    rw [if_pos hspan, bitOf_setWordBit (le_of_eq hlen) hbit, slice_bits hs hin, hpos,
      decide_eq_decide.mpr heq]
  · have hne : p ≠ 8 * set.toNat + fd := by
      rintro rfl
      refine hspan ?_
      unfold Span
      omega
    rw [if_neg hspan, decide_eq_false hne, Bool.or_false]

-- ---------------------------------------------------------------------------
-- The pollfd array
-- ---------------------------------------------------------------------------

theorem ofNat_le16 (v : UInt16) : UInt16.ofNat (leValue (le16 v)) = v := by
  rw [leValue_le16, UInt16.ofNat_toNat]

theorem leValue_le32 (v : UInt32) : leValue (le32 v) = v.toNat := by
  rw [le32, leValue_encLe]
  exact Nat.mod_eq_of_lt v.toNat_lt

theorem pollfdsOf_cons {fd : Nat} (hfd : fd < 1024) (ev : UInt16) (rest : List UInt8) :
    pollfdsOf (pollfdBytes (fd, ev) ++ rest) = ((fd : Int), ev) :: pollfdsOf rest := by
  have hvalue : (BitVec.ofNat 32 (leValue (le32 (UInt32.ofNat fd)))).toInt = (fd : Int) := by
    have hbound : 2 * (BitVec.ofNat 32 fd).toNat < 2 ^ 32 := by
      rw [BitVec.toNat_ofNat]
      omega
    rw [leValue_le32, UInt32.toNat_ofNat_of_lt' (by simp only [UInt32.size]; omega),
      BitVec.toInt_eq_toNat_of_lt hbound, BitVec.toNat_ofNat, Nat.mod_eq_of_lt (by omega)]
  have hcons : pollfdsOf (pollfdBytes (fd, ev) ++ rest) =
      ((BitVec.ofNat 32 (leValue (le32 (UInt32.ofNat fd)))).toInt, UInt16.ofNat (leValue (le16 ev))) ::
        pollfdsOf rest := rfl
  rw [hcons, hvalue, ofNat_le16]

theorem pollfdsOf_scratch (fds : List Nat) (hfds : ∀ fd ∈ fds, fd < 1024) (ev : Nat → UInt16) :
    pollfdsOf ((fds.map fun fd : Nat => ((fd : Int), ev fd)).flatMap pollfdBytes) =
      fds.map fun fd : Nat => ((fd : Int), ev fd) := by
  induction fds with
  | nil => rfl
  | cons fd fds ih =>
    rw [List.map_cons, List.flatMap_cons, pollfdsOf_cons (hfds fd List.mem_cons_self),
      ih fun x hx => hfds x (List.mem_cons_of_mem _ hx)]

theorem reventsOf_setRevents (hlen : bytes.length = 8 * readiness.length) :
    reventsOf (setRevents bytes readiness) = readiness := by
  induction readiness generalizing bytes with
  | nil =>
    have hnil : bytes = [] := List.eq_nil_of_length_eq_zero hlen
    rw [hnil]
    rfl
  | cons r readiness ih =>
    rcases bytes with _ | ⟨f₀, _ | ⟨f₁, _ | ⟨f₂, _ | ⟨f₃, _ | ⟨e₀, _ | ⟨e₁, _ | ⟨r₀, _ | ⟨r₁, rest⟩⟩⟩⟩⟩⟩⟩⟩
    case cons.cons.cons.cons.cons.cons.cons.cons =>
      have hrest : rest.length = 8 * readiness.length := by
        simp only [List.length_cons] at hlen
        omega
      have hcons :
          reventsOf (setRevents (f₀ :: f₁ :: f₂ :: f₃ :: e₀ :: e₁ :: r₀ :: r₁ :: rest) (r :: readiness)) =
            UInt16.ofNat (leValue (le16 r)) :: reventsOf (setRevents rest readiness) := rfl
      rw [hcons, ofNat_le16, ih hrest]
    all_goals
      simp only [List.length_cons, List.length_nil] at hlen
      omega

-- ---------------------------------------------------------------------------
-- The answers in the bitmaps
-- ---------------------------------------------------------------------------

def hits (set : Int) (event ev revents : UInt16) (fd p : Nat) : Bool :=
  decide (revents &&& event ≠ 0 ∧ ev &&& event ≠ 0 ∧ set ≠ 0) && decide (p = 8 * set.toNat + fd)

theorem setFdBit_if (h : SetFits memory set) (hfd : fd < 1024) (event ev revents : UInt16) :
    SameSize memory
        (if revents &&& event ≠ 0 ∧ ev &&& event ≠ 0 ∧ set ≠ 0 then setFdBit memory set fd else memory) ∧
      ∀ p, bitAt
          (if revents &&& event ≠ 0 ∧ ev &&& event ≠ 0 ∧ set ≠ 0 then setFdBit memory set fd else memory) p =
        (bitAt memory p || hits set event ev revents fd p) := by
  split
  · rename_i hset
    obtain ⟨hsize, hbits⟩ := setFdBit_bits (h hset.2.2) hfd
    refine ⟨hsize, fun p => ?_⟩
    rw [hbits, hits, decide_eq_true hset, Bool.true_and]
  · rename_i hset
    refine ⟨.refl memory, fun p => ?_⟩
    rw [hits, decide_eq_false hset, Bool.false_and, Bool.or_false]

theorem setReady_bits (hread : SetFits memory readfds) (hwrite : SetFits memory writefds) {fd : Nat}
    (hfd : fd < 1024) (ev revents : UInt16) :
    SameSize memory (setReady readfds writefds memory ((fd, ev), revents)) ∧
      ∀ p, bitAt (setReady readfds writefds memory ((fd, ev), revents)) p =
        (bitAt memory p || (hits readfds POLLIN ev revents fd p || hits writefds POLLOUT ev revents fd p)) := by
  unfold setReady
  dsimp only
  rw [Int.toNat_natCast]
  split
  · rename_i hzero
    refine ⟨.refl memory, fun p => ?_⟩
    have hnone (set : Int) (event : UInt16) : hits set event ev revents fd p = false := by
      have hand : ¬ (revents &&& event ≠ 0 ∧ ev &&& event ≠ 0 ∧ set ≠ 0) := by
        rw [hzero, UInt16.zero_and]
        exact fun hset => hset.1 rfl
      rw [hits, decide_eq_false hand, Bool.false_and]
    rw [hnone, hnone, Bool.or_false, Bool.or_false]
  · obtain ⟨hsize, hbits⟩ := setFdBit_if hread hfd POLLIN ev revents
    obtain ⟨hsize', hbits'⟩ := setFdBit_if (hwrite.of_sameSize hsize) hfd POLLOUT ev revents
    refine ⟨hsize.trans hsize', fun p => ?_⟩
    rw [hbits', hbits, Bool.or_assoc]

/-- Over all answers: a bit is set that was set or that some answer sets. -/
theorem foldl_setReady_bits (hread : SetFits memory readfds) (hwrite : SetFits memory writefds)
    (fds : List Nat) (hfds : ∀ fd ∈ fds, fd < 1024) (ev revents : Nat → UInt16) :
    ∀ p, bitAt ((fds.map fun fd : Nat => (((fd : Int), ev fd), revents fd)).foldl
        (setReady readfds writefds) memory) p =
      (bitAt memory p || fds.any fun fd => hits readfds POLLIN (ev fd) (revents fd) fd p ||
        hits writefds POLLOUT (ev fd) (revents fd) fd p) := by
  induction fds generalizing memory with
  | nil =>
    intro p
    rw [List.any_nil, Bool.or_false]
    rfl
  | cons fd fds ih =>
    intro p
    obtain ⟨hsize, hbits⟩ := setReady_bits hread hwrite (hfds fd List.mem_cons_self) (ev fd) (revents fd)
    rw [List.map_cons, List.foldl_cons,
      ih (hread.of_sameSize hsize) (hwrite.of_sameSize hsize)
        (fun x hx => hfds x (List.mem_cons_of_mem _ hx)), hbits, List.any_cons, Bool.or_assoc]

theorem clear_bits (hset : SetFits memory set) :
    SameSize memory (if set ≠ 0 then clearFdSet memory set else memory) ∧
      ∀ p, bitAt (if set ≠ 0 then clearFdSet memory set else memory) p =
        if set ≠ 0 ∧ Span set 128 (p / 8) then false else bitAt memory p := by
  by_cases hne : set ≠ 0
  · obtain ⟨hsize, hbits⟩ := clearFdSet_bits (hset hne)
    rw [if_pos hne]
    refine ⟨hsize, fun p => (hbits p).trans (if_congr ?_ rfl rfl)⟩
    exact ⟨fun h => ⟨hne, h⟩, fun h => h.2⟩
  · rw [if_neg hne]
    exact ⟨.refl memory, fun p => (if_neg fun h => hne h.1).symm⟩

/-- The bits of the two bitmaps are those that the answers set. -/
def Marks (readfds writefds : Int) (fds : List Nat) (ev revents : Nat → UInt16)
    (memory : Option MemoryKind) : Prop :=
  ∀ p, readfds ≠ 0 ∧ Span readfds 128 (p / 8) ∨ writefds ≠ 0 ∧ Span writefds 128 (p / 8) →
    bitAt memory p = fds.any fun fd => hits readfds POLLIN (ev fd) (revents fd) fd p ||
      hits writefds POLLOUT (ev fd) (revents fd) fd p

theorem selectEnd_bits (hread : SetFits memory readfds) (hwrite : SetFits memory writefds) (fds : List Nat)
    (hfds : ∀ fd ∈ fds, fd < 1024) (ev revents : Nat → UInt16) (hr : 0 ≤ r)
    (hs : guestSlice memory TMP_BASE (fds.length * POLLFD_SIZE) = .ok bytes)
    (hrevents : reventsOf bytes = fds.map revents) :
    ∃ memory', selectEnd readfds writefds (fds.map fun fd : Nat => ((fd : Int), ev fd)) r memory =
        (r, memory') ∧
      Marks readfds writefds fds ev revents memory' := by
  have hzip : (fds.map fun fd : Nat => ((fd : Int), ev fd)).zip (fds.map revents) =
      fds.map fun fd : Nat => (((fd : Int), ev fd), revents fd) := List.zip_map' ..
  unfold selectEnd
  rw [if_neg (by omega), List.length_map, hs]
  dsimp only
  rw [hrevents, hzip]
  obtain ⟨hsize, hbits⟩ := clear_bits hread
  obtain ⟨hsize', hbits'⟩ := clear_bits (hwrite.of_sameSize hsize)
  have hcleared := hsize.trans hsize'
  refine ⟨_, rfl, fun p hp => ?_⟩
  rw [foldl_setReady_bits (hread.of_sameSize hcleared) (hwrite.of_sameSize hcleared) fds hfds, hbits', hbits]
  rcases hp with hp | hp
  · rw [if_pos hp, ite_self, Bool.false_or]
  · rw [if_pos hp, Bool.false_or]

-- ---------------------------------------------------------------------------
-- What poll answers
-- ---------------------------------------------------------------------------

theorem guestSlice_errno (h : guestSlice memory ptr len = .error e) : e = -EFAULT ∨ e = -EINVAL := by
  unfold guestSlice at h
  split at h
  · cases h
    exact .inl rfl
  · split at h
    · rename_i hmem
      cases h
      unfold ownedOf at hmem
      split at hmem
      · cases hmem
        exact .inl rfl
      · cases hmem
      · cases hmem
        exact .inr rfl
    · split at h
      · cases h
      · cases h
        exact .inl rfl

theorem guestCopy_error (h : guestCopy memory ptr len new = .error e) (hnew : (new.length : Int) = len) :
    guestSlice memory ptr len = .error e := by
  cases hs : guestSlice memory ptr len with
  | error e' =>
    unfold guestCopy at h
    unfold guestSlice at hs
    by_cases hsign : ptr < 0 ∨ len < 0
    · rw [if_pos hsign] at h hs
      cases h
      exact hs.symm
    · rw [if_neg hsign] at h hs
      cases hmem : ownedOf memory with
      | error e₀ =>
        simp only [hmem] at h hs
        cases h
        exact hs.symm
      | ok mem =>
        simp only [hmem] at h hs
        split at h
        · cases h
        · split at hs
          · cases hs
          · cases h
            exact hs.symm
  | ok bytes =>
    obtain ⟨memory', hcopy⟩ := guestCopy_fits new (.of_slice hs) hnew
    cases h.symm.trans hcopy

theorem timeoutMs_errno (h : timeoutMs memory timeoutPtr = .error e) : e = -EFAULT ∨ e = -EINVAL := by
  unfold timeoutMs at h
  split at h
  · cases h
  · split at h
    · rename_i hs
      cases h
      exact guestSlice_errno hs
    · split at h
      · cases h
        exact .inr rfl
      · cases h

/-- The descriptors with an answer, whatever it is. -/
def answerCount (fds : List Nat) (revents : Nat → UInt16) : Nat := fds.countP fun fd => revents fd ≠ 0

theorem answered {k : Kernel} (hread : SetFits m readfds) (hwrite : SetFits m writefds) (fds : List Nat)
    (hfds : ∀ fd ∈ fds, fd < 1024) (ev revents : Nat → UInt16)
    (hs : guestSlice m TMP_BASE (fds.length * POLLFD_SIZE) = .ok bytes) :
    ∃ m' memory', writeRevents { k with memory := m } TMP_BASE (fds.map revents) =
        .returns (answerCount fds revents) m' ∧
      selectEnd readfds writefds (fds.map fun fd : Nat => ((fd : Int), ev fd)) (answerCount fds revents) m' =
        (((answerCount fds revents : Nat) : Int), memory') ∧
      Marks readfds writefds fds ev revents memory' := by
  have hlen : bytes.length = 8 * (fds.map revents).length := by
    rw [guestSlice_length hs, List.length_map]
    unfold POLLFD_SIZE
    omega
  have hnew : ((setRevents bytes (fds.map revents)).length : Int) = fds.length * POLLFD_SIZE := by
    rw [setRevents_length, hlen, List.length_map]
    unfold POLLFD_SIZE
    omega
  obtain ⟨m', hcopy⟩ := guestCopy_fits _ (.of_slice hs) hnew
  have hsize := guestCopy_sameSize hcopy
  obtain ⟨memory', hend, hbits⟩ := selectEnd_bits (hread.of_sameSize hsize) (hwrite.of_sameSize hsize)
    fds hfds ev revents (Int.natCast_nonneg (answerCount fds revents)) (copy_slice hcopy hnew)
    (reventsOf_setRevents hlen)
  refine ⟨m', memory', ?_, hend, hbits⟩
  have htotal : ((fds.map revents).length : Int) * 8 = fds.length * POLLFD_SIZE := by
    rw [List.length_map]
    rfl
  simp only [writeRevents, htotal, hs, hcopy, List.countP_map]
  rfl

theorem scratch_total (fds : List Nat) (ev : Nat → UInt16) :
    (((fds.map fun fd : Nat => ((fd : Int), ev fd)).flatMap pollfdBytes).length : Int) =
      fds.length * POLLFD_SIZE := by
  rw [scratch_length, List.length_map]
  unfold POLLFD_SIZE
  omega

theorem pollOne_memory (k : Kernel) (sides : Nat → SocketSide) (m : Option MemoryKind) (fd : Int)
    (ev : UInt16) :
    pollOne { k with memory := m } sides fd ev = pollOne k sides fd ev := rfl

theorem poll_scratch (k : Kernel) (sides : Nat → SocketSide) (ms : Int) {fds : List Nat} (hne : fds ≠ [])
    (hlen : fds.length ≤ 1024) (hfds : ∀ fd ∈ fds, fd < 1024) (ev : Nat → UInt16)
    (hs : guestSlice m TMP_BASE (fds.length * POLLFD_SIZE) =
      .ok ((fds.map fun fd : Nat => ((fd : Int), ev fd)).flatMap pollfdBytes)) :
    poll { k with memory := m } sides TMP_BASE fds.length ms =
        writeRevents { k with memory := m } TMP_BASE (fds.map fun fd : Nat => pollOne k sides fd (ev fd)) ∨
      ∃ watched wakes, poll { k with memory := m } sides TMP_BASE fds.length ms = .parks watched wakes := by
  have hpos : 0 < fds.length := List.length_pos_iff.mpr hne
  have hmod : Int.bmod (fds.length * 8) (2 ^ 64) = fds.length * POLLFD_SIZE := by
    unfold POLLFD_SIZE
    refine Int.bmod_eq_of_le ?_ ?_ <;> omega
  unfold poll
  rw [if_neg (by omega), if_neg (by omega), if_neg (by omega), hmod]
  have hanswers : (fds.map fun fd : Nat => ((fd : Int), ev fd)).map
      (fun e => pollOne { k with memory := m } sides e.1 e.2) =
        fds.map fun fd : Nat => pollOne k sides fd (ev fd) := by
    simp only [List.map_map, Function.comp_def, pollOne_memory]
  simp only [hs, pollfdsOf_scratch fds hfds ev, hanswers]
  split
  · exact .inl rfl
  · exact .inr ⟨_, _, rfl⟩

-- ---------------------------------------------------------------------------
-- Bits and counts
-- ---------------------------------------------------------------------------

def setBits (memory : Option MemoryKind) (set : Int) : Nat := (List.range 1024).countP (fdIsSet memory set)

theorem fdIsSet_ne_zero (h : fdIsSet memory set fd = true) : set ≠ 0 :=
  of_decide_eq_true (Bool.and_eq_true_iff.mp h).1

theorem SetFits.nonneg (h : SetFits memory set) (hset : set ≠ 0) : 0 ≤ set := by
  obtain ⟨bytes, hs⟩ := (h hset).slice
  obtain ⟨-, -, hptr, -⟩ := guestSlice_ok hs
  exact hptr

theorem and_ne_zero (h : r &&& event ≠ (0 : UInt16)) : r ≠ 0 := by
  rintro rfl
  exact h UInt16.zero_and

theorem fdIsSet_null (memory : Option MemoryKind) (fd : Nat) : fdIsSet memory 0 fd = false := rfl

/-- The bits of one of the bitmaps after the call: `ready` for this one, `other` for the
other one. -/
theorem fdIsSet_done {ready other : Nat → Bool} {set set' : Int} (hset : set ≠ 0)
    (hbits : bitAt memory (8 * set.toNat + fd) = true ↔
      (∃ x, ready x = true ∧ 8 * set.toNat + fd = 8 * set.toNat + x) ∨
        ∃ x, other x = true ∧ 8 * set.toNat + fd = 8 * set'.toNat + x) :
    fdIsSet memory set fd = ready fd ↔
      ∀ x, other x = true → 8 * set.toNat + fd = 8 * set'.toNat + x → ready fd = true := by
  have hbit : fdIsSet memory set fd = bitAt memory (8 * set.toNat + fd) := by
    rw [fdIsSet, decide_eq_true hset, Bool.true_and]
  rw [hbit, Bool.eq_iff_iff, hbits]
  constructor
  · intro h x hx hp
    exact h.mp (.inr ⟨x, hx, hp⟩)
  · intro h
    constructor
    · rintro (⟨x, hx, hp⟩ | ⟨x, hx, hp⟩)
      · have hsame : fd = x := by omega
        exact hsame ▸ hx
      · exact h x hx hp
    · exact fun hready => .inl ⟨fd, hready, rfl⟩

theorem eventsOf_read (inRead inWrite : Bool) : eventsOf inRead inWrite &&& POLLIN ≠ 0 ↔ inRead = true := by
  revert inRead inWrite
  decide

theorem eventsOf_write (inRead inWrite : Bool) : eventsOf inRead inWrite &&& POLLOUT ≠ 0 ↔ inWrite = true := by
  revert inRead inWrite
  decide

-- ---------------------------------------------------------------------------
-- A call and its last look
-- ---------------------------------------------------------------------------

/-- The arguments of a call, with memory and descriptors as they were when it was made
and the pipes and sockets of its last look. -/
structure SelectCall where
  kernel : Kernel
  sides : Nat → SocketSide
  nfds : Int
  readfds : Int
  writefds : Int
  timeoutPtr : Int

namespace SelectCall

section
variable (c : SelectCall)

def run : Selected := select c.kernel c.sides c.nfds c.readfds c.writefds c.timeoutPtr

def look (cells : Cells) (sides : Nat → SocketSide) : SelectCall :=
  { c with kernel := { c.kernel with cells }, sides }

/-- At most 1024 descriptors, and bitmaps that are in memory or 0. -/
structure Valid : Prop where
  pos : 0 < c.nfds
  le : c.nfds ≤ 1024
  read : SetFits c.kernel.memory c.readfds
  write : SetFits c.kernel.memory c.writefds

def wanted (fd : Nat) : UInt16 :=
  eventsOf (fdIsSet c.kernel.memory c.readfds fd) (fdIsSet c.kernel.memory c.writefds fd)

def asks (fd : Nat) : Bool :=
  (fd : Int) < c.nfds && (fdIsSet c.kernel.memory c.readfds fd || fdIsSet c.kernel.memory c.writefds fd)

def asked : List Nat := (List.range c.nfds.toNat).filter c.asks

def entries : List (Int × UInt16) := c.asked.map fun fd : Nat => ((fd : Int), c.wanted fd)

def answer (fd : Nat) : UInt16 := pollOne c.kernel c.sides fd (c.wanted fd)

def readReady (fd : Nat) : Bool :=
  (fd : Int) < c.nfds && fdIsSet c.kernel.memory c.readfds fd && c.answer fd &&& POLLIN ≠ 0

def writeReady (fd : Nat) : Bool :=
  (fd : Int) < c.nfds && fdIsSet c.kernel.memory c.writefds fd && c.answer fd &&& POLLOUT ≠ 0

def scratch : Except Int (Option MemoryKind) :=
  guestCopy c.kernel.memory TMP_BASE (c.asked.length * POLLFD_SIZE) (c.entries.flatMap pollfdBytes)

/-- The pollfd array has no place in memory, or beside it the timeout is none. -/
def Refused : Prop := ∀ memory, c.scratch = .ok memory → (timeoutMs memory c.timeoutPtr).isOk = false

/-- A call asks for nothing, is refused or gives the answers of `poll` to all it is
asked. -/
inductive Outcome (value : Int) (memory : Option MemoryKind) : Prop
  | idle (hasked : c.asked = []) (hvalue : value = 0) (hmemory : memory = c.kernel.memory)
  | refused (hasked : c.asked ≠ []) (h : c.Refused) (hvalue : value = -EFAULT ∨ value = -EINVAL)
  | done (hasked : c.asked ≠ []) (h : ¬ c.Refused) (hvalue : value = answerCount c.asked c.answer)
      (hmarks : Marks c.readfds c.writefds c.asked c.wanted c.answer memory)

/-- A call that parks has written the pollfd array, and `poll` has read from it what was
asked. -/
def parked (memory : Option MemoryKind) : Selecting where
  readfds := c.readfds
  writefds := c.writefds
  entries := c.entries
  polled := c.entries
  memory := memory

inductive Begins : Selected → Prop
  | returns (h : c.Outcome value memory) : Begins (.returns value memory)
  | parks (hasked : c.asked ≠ []) (hscratch : c.scratch = .ok memory)
      (htimeout : timeoutMs memory c.timeoutPtr = .ok ms) : Begins (.parks (c.parked memory))

end

variable {c : SelectCall}

theorem scanFds_eq (hc : c.Valid) :
    scanFds c.kernel.memory c.nfds.toNat c.readfds c.writefds =
      c.asked.map fun fd =>
        (fd, fdIsSet c.kernel.memory c.readfds fd, fdIsSet c.kernel.memory c.writefds fd) := by
  have hle := hc.le
  rw [asked, ← filterMap_ite]
  refine List.filterMap_congr fun fd hfd => ?_
  have hlt : fd < c.nfds.toNat := List.mem_range.mp hfd
  have hword : ¬ FD_SET_LONGS ≤ fd / 64 := by
    unfold FD_SET_LONGS
    omega
  have hasks : c.asks fd =
      (fdIsSet c.kernel.memory c.readfds fd || fdIsSet c.kernel.memory c.writefds fd) := by
    rw [asks, decide_eq_true (by omega), Bool.true_and]
  rw [if_neg hword, isSet_maskAt hc.read (by omega), isSet_maskAt hc.write (by omega), hasks]

theorem pollEntries_eq (hc : c.Valid) :
    pollEntries (scanFds c.kernel.memory c.nfds.toNat c.readfds c.writefds) = c.entries := by
  rw [scanFds_eq hc, pollEntries, List.map_map]
  rfl

theorem lt_of_mem (hc : c.Valid) (h : fd ∈ c.asked) : fd < 1024 := by
  have hle := hc.le
  have hlt := List.mem_range.mp (List.mem_filter.mp h).1
  omega

theorem asked_length_le (hc : c.Valid) : c.asked.length ≤ 1024 := by
  have hle := hc.le
  have hfilter := List.length_filter_le c.asks (List.range c.nfds.toNat)
  rw [List.length_range] at hfilter
  exact hfilter.trans (by omega)

theorem run_idle (hc : c.Valid) (hasked : c.asked = []) : c.run = .returns 0 c.kernel.memory := by
  have hpos := hc.pos
  have hle := hc.le
  have hrange : ¬ (c.nfds < 0 ∨ 2 ^ 31 ≤ c.nfds) := by omega
  unfold run select
  rw [if_neg hrange, if_neg (by omega), pollEntries_eq hc, entries, hasked]
  rfl

theorem run_asked (hc : c.Valid) (hasked : c.asked ≠ []) :
    c.run =
      match c.scratch with
      | .error e => .returns e c.kernel.memory
      | .ok memory =>
        match timeoutMs memory c.timeoutPtr with
        | .error e => .returns e memory
        | .ok ms =>
          (poll { c.kernel with memory } c.sides TMP_BASE c.asked.length ms).select c.readfds c.writefds
            c.entries (pollfdsOf (bytesAt memory TMP_BASE (c.asked.length * POLLFD_SIZE))) memory := by
  have hpos := hc.pos
  have hle := hc.le
  have hrange : ¬ (c.nfds < 0 ∨ 2 ^ 31 ≤ c.nfds) := by omega
  have hentries : c.entries.isEmpty = false := by
    rw [List.isEmpty_eq_false_iff, entries, Ne, List.map_eq_nil_iff]
    exact hasked
  have hlength : c.entries.length = c.asked.length := List.length_map ..
  unfold run select
  rw [if_neg hrange, if_neg (by omega), pollEntries_eq hc]
  dsimp only
  rw [hentries, hlength]
  rfl

theorem scratch_slice (h : c.scratch = .ok m) :
    guestSlice m TMP_BASE (c.asked.length * POLLFD_SIZE) = .ok (c.entries.flatMap pollfdBytes) :=
  copy_slice h (scratch_total _ _)

/-- The last look of a call and what it does with it, whether it was parked or not. -/
theorem outcome_done (hc : c.Valid) (hasked : c.asked ≠ []) (hscratch : c.scratch = .ok m)
    (htimeout : timeoutMs m c.timeoutPtr = .ok ms) :
    ∃ m' memory', writeRevents { c.kernel with memory := m } TMP_BASE (c.asked.map c.answer) =
        .returns (answerCount c.asked c.answer) m' ∧
      selectEnd c.readfds c.writefds c.entries (answerCount c.asked c.answer) m' =
        (((answerCount c.asked c.answer : Nat) : Int), memory') ∧
      c.Outcome (answerCount c.asked c.answer) memory' := by
  have hsize := guestCopy_sameSize hscratch
  obtain ⟨m', memory', hwritten, hend, hmarks⟩ := answered (k := c.kernel) (hc.read.of_sameSize hsize)
    (hc.write.of_sameSize hsize) c.asked (fun _ h => lt_of_mem hc h) c.wanted c.answer
    (scratch_slice hscratch)
  have hnot : ¬ c.Refused := by
    intro href
    have hfalse := href m hscratch
    rw [htimeout] at hfalse
    cases hfalse
  exact ⟨m', memory', hwritten, hend, .done hasked hnot rfl hmarks⟩

theorem run_begins (hc : c.Valid) : c.Begins c.run := by
  by_cases hasked : c.asked = []
  · rw [run_idle hc hasked]
    exact .returns (.idle hasked rfl rfl)
  · rw [run_asked hc hasked]
    split
    · rename_i e hscratch
      have herrno := guestSlice_errno (guestCopy_error hscratch (scratch_total _ _))
      refine .returns (.refused hasked (fun m hm => ?_) herrno)
      cases hscratch.symm.trans hm
    · rename_i m hscratch
      split
      · rename_i e htimeout
        refine .returns (.refused hasked (fun m' hm => ?_) (timeoutMs_errno htimeout))
        cases hscratch.symm.trans hm
        rw [htimeout]
        rfl
      · rename_i ms htimeout
        have hslice := scratch_slice hscratch
        obtain ⟨m', memory', hwritten, hend, hdone⟩ := outcome_done hc hasked hscratch htimeout
        rcases poll_scratch c.kernel c.sides ms hasked (asked_length_le hc) (fun _ h => lt_of_mem hc h)
          c.wanted hslice with hpoll | ⟨watched, wakes, hpoll⟩
        · rw [hpoll.trans hwritten, Polled.select, hend]
          exact .returns hdone
        · have hpolled : pollfdsOf (bytesAt m TMP_BASE (c.asked.length * POLLFD_SIZE)) = c.entries := by
            rw [bytesAt, hslice]
            exact pollfdsOf_scratch _ (fun _ h => lt_of_mem hc h) _
          rw [hpoll, Polled.select, hpolled]
          exact .parks hasked hscratch htimeout

theorem resume_parked
    (h : writeRevents { c.kernel with memory := m } TMP_BASE (c.asked.map c.answer) = .returns r m') :
    (c.parked m).resume c.kernel c.sides = selectEnd c.readfds c.writefds c.entries r m' := by
  have hlook : c.entries.map (fun e => pollOne c.kernel c.sides e.1 e.2) = c.asked.map c.answer := by
    rw [entries, List.map_map, Function.comp_def]
    rfl
  simp only [Selecting.resume, parked, hlook, h]

theorem completes_outcome (hc : c.Valid)
    (h : Completes c.kernel c.sides c.nfds c.readfds c.writefds c.timeoutPtr cells sides' value memory) :
    (c.look cells sides').Outcome value memory := by
  have hbegins := run_begins hc
  cases h with
  | now h =>
    rw [run, h] at hbegins
    cases hbegins with
    | returns hout => exact hout
  | later q h cells sides' =>
    rw [run, h] at hbegins
    cases hbegins with
    | parks hasked hscratch htimeout =>
      have hlook : (c.look cells sides').Valid := ⟨hc.pos, hc.le, hc.read, hc.write⟩
      obtain ⟨m', memory', hwritten, hend, hdone⟩ := outcome_done hlook hasked hscratch htimeout
      have hresume := (resume_parked hwritten).trans hend
      rw [show (c.parked _).resume { c.kernel with cells } sides' = _ from hresume]
      exact hdone

-- ---------------------------------------------------------------------------
-- When the bitmaps and the value agree with poll
-- ---------------------------------------------------------------------------

section
variable (c : SelectCall)

/-- A call that succeeds leaves in the bitmaps what `poll_one` finds ready of what was in
them below `c.nfds`, and returns the number of bits; it fails with `-EBADF` when it is
asked for a descriptor that is not bound. -/
structure Agrees (value : Int) (memory : Option MemoryKind) : Prop where
  read : 0 ≤ value → ∀ fd < 1024, fdIsSet memory c.readfds fd = c.readReady fd
  write : 0 ≤ value → ∀ fd < 1024, fdIsSet memory c.writefds fd = c.writeReady fd
  count : 0 ≤ value → value = setBits memory c.readfds + setBits memory c.writefds
  unbound : (∃ fd, c.asks fd = true ∧ c.kernel.fds.table.get? (UInt32.ofNat fd) = none) →
    value = -EBADF

/-- Only bound descriptors are asked for; a call that is asked for none has empty bitmaps;
and unless it is refused, as many descriptors are ready for both as have only errors, and
what is in both bitmaps because they overlap is ready in both or in none. -/
structure Meets : Prop where
  bound : ∀ fd, c.asks fd = true → (c.kernel.fds.table.get? (UInt32.ofNat fd)).isSome = true
  cleared : (∀ fd, c.asks fd = false) →
    ∀ fd < 1024, fdIsSet c.kernel.memory c.readfds fd = false ∧ fdIsSet c.kernel.memory c.writefds fd = false
  balanced : ¬ c.Refused →
    c.asked.countP (fun fd => c.readReady fd && c.writeReady fd) =
      c.asked.countP (fun fd => c.answer fd ≠ 0 && !c.readReady fd && !c.writeReady fd)
  shared : ¬ c.Refused → c.readfds ≠ 0 → c.writefds ≠ 0 →
    ∀ i j : Nat, i < 1024 → j < 1024 → 8 * c.readfds + i = 8 * c.writefds + j →
      c.readReady i = c.writeReady j

end

theorem asks_mem (h : c.asks fd = true) : fd ∈ c.asked := by
  have hlt : (fd : Int) < c.nfds := of_decide_eq_true (Bool.and_eq_true_iff.mp h).1
  exact List.mem_filter.mpr ⟨List.mem_range.mpr (by omega), h⟩

theorem readReady_iff : c.readReady fd = true ↔
    (fd : Int) < c.nfds ∧ fdIsSet c.kernel.memory c.readfds fd = true ∧ c.answer fd &&& POLLIN ≠ 0 := by
  rw [readReady, Bool.and_eq_true, Bool.and_eq_true, decide_eq_true_iff, decide_eq_true_iff, and_assoc]

theorem writeReady_iff : c.writeReady fd = true ↔
    (fd : Int) < c.nfds ∧ fdIsSet c.kernel.memory c.writefds fd = true ∧ c.answer fd &&& POLLOUT ≠ 0 := by
  rw [writeReady, Bool.and_eq_true, Bool.and_eq_true, decide_eq_true_iff, decide_eq_true_iff, and_assoc]

theorem readReady_asks (h : c.readReady fd = true) : c.asks fd = true := by
  obtain ⟨hlt, hset, -⟩ := readReady_iff.mp h
  rw [asks, decide_eq_true hlt, hset]
  rfl

theorem writeReady_asks (h : c.writeReady fd = true) : c.asks fd = true := by
  obtain ⟨hlt, hset, -⟩ := writeReady_iff.mp h
  rw [asks, decide_eq_true hlt, hset, Bool.or_true]
  rfl

/-- A bit that the answers set is one of a descriptor that is ready. -/
theorem any_hits (p : Nat) :
    (c.asked.any fun fd =>
        hits c.readfds POLLIN (c.wanted fd) (c.answer fd) fd p ||
          hits c.writefds POLLOUT (c.wanted fd) (c.answer fd) fd p) = true ↔
      (∃ fd, c.readReady fd = true ∧ p = 8 * c.readfds.toNat + fd) ∨
        ∃ fd, c.writeReady fd = true ∧ p = 8 * c.writefds.toNat + fd := by
  have hread (fd : Nat) : hits c.readfds POLLIN (c.wanted fd) (c.answer fd) fd p =
      true ↔ (c.answer fd &&& POLLIN ≠ 0 ∧ fdIsSet c.kernel.memory c.readfds fd = true) ∧
        p = 8 * c.readfds.toNat + fd := by
    rw [hits, Bool.and_eq_true, decide_eq_true_iff, decide_eq_true_iff, wanted, eventsOf_read]
    exact ⟨fun h => ⟨⟨h.1.1, h.1.2.1⟩, h.2⟩, fun h => ⟨⟨h.1.1, h.1.2, fdIsSet_ne_zero h.1.2⟩, h.2⟩⟩
  have hwrite (fd : Nat) : hits c.writefds POLLOUT (c.wanted fd) (c.answer fd) fd p =
      true ↔ (c.answer fd &&& POLLOUT ≠ 0 ∧ fdIsSet c.kernel.memory c.writefds fd = true) ∧
        p = 8 * c.writefds.toNat + fd := by
    rw [hits, Bool.and_eq_true, decide_eq_true_iff, decide_eq_true_iff, wanted, eventsOf_write]
    exact ⟨fun h => ⟨⟨h.1.1, h.1.2.1⟩, h.2⟩, fun h => ⟨⟨h.1.1, h.1.2, fdIsSet_ne_zero h.1.2⟩, h.2⟩⟩
  have hbelow (fd : Nat) (hfd : fd ∈ c.asked) : (fd : Int) < c.nfds :=
    of_decide_eq_true (Bool.and_eq_true_iff.mp (List.mem_filter.mp hfd).2).1
  rw [List.any_eq_true]
  constructor
  · rintro ⟨fd, hfd, hhits⟩
    rcases Bool.or_eq_true_iff.mp hhits with hhits | hhits
    · obtain ⟨⟨hanswer, hset⟩, hp⟩ := (hread fd).mp hhits
      exact .inl ⟨fd, readReady_iff.mpr ⟨hbelow fd hfd, hset, hanswer⟩, hp⟩
    · obtain ⟨⟨hanswer, hset⟩, hp⟩ := (hwrite fd).mp hhits
      exact .inr ⟨fd, writeReady_iff.mpr ⟨hbelow fd hfd, hset, hanswer⟩, hp⟩
  · rintro (⟨fd, hready, hp⟩ | ⟨fd, hready, hp⟩)
    · obtain ⟨-, hset, hanswer⟩ := readReady_iff.mp hready
      exact ⟨fd, asks_mem (readReady_asks hready),
        Bool.or_eq_true_iff.mpr (.inl ((hread fd).mpr ⟨⟨hanswer, hset⟩, hp⟩))⟩
    · obtain ⟨-, hset, hanswer⟩ := writeReady_iff.mp hready
      exact ⟨fd, asks_mem (writeReady_asks hready),
        Bool.or_eq_true_iff.mpr (.inr ((hwrite fd).mpr ⟨⟨hanswer, hset⟩, hp⟩))⟩

theorem countP_asked (hc : c.Valid) (q : Nat → Bool) (hq : ∀ fd, q fd = true → c.asks fd = true) :
    (List.range 1024).countP q = c.asked.countP q := by
  have hlt (fd : Nat) (h : q fd = true) : fd < c.nfds.toNat :=
    List.mem_range.mp (List.mem_filter.mp (asks_mem (hq fd h))).1
  have hle := hc.le
  obtain ⟨d, hd⟩ : ∃ d, 1024 = c.nfds.toNat + d := ⟨1024 - c.nfds.toNat, by omega⟩
  rw [hd, countP_range_of_lt q hlt d, asked, List.countP_filter]
  refine List.countP_congr fun fd _ => ?_
  rw [Bool.and_eq_true]
  exact ⟨fun h => ⟨h, hq fd h⟩, fun h => h.1⟩

/-- The value counts the bits exactly when as many descriptors are ready for both as have
only errors. -/
theorem answerCount_iff (hc : c.Valid) :
    answerCount c.asked c.answer =
        (List.range 1024).countP c.readReady + (List.range 1024).countP c.writeReady ↔
      c.asked.countP (fun fd => c.readReady fd && c.writeReady fd) =
        c.asked.countP (fun fd => c.answer fd ≠ 0 && !c.readReady fd && !c.writeReady fd) := by
  have hbalance := countP_parts c.asked (fun fd => c.answer fd ≠ 0)
    c.readReady c.writeReady
    (fun fd h => decide_eq_true (and_ne_zero (readReady_iff.mp h).2.2))
    (fun fd h => decide_eq_true (and_ne_zero (writeReady_iff.mp h).2.2))
  rw [countP_asked hc c.readReady fun _ => readReady_asks,
    countP_asked hc c.writeReady fun _ => writeReady_asks, answerCount]
  omega

theorem readReady_null (h : c.readfds = 0) (fd : Nat) : c.readReady fd = false := by
  refine Bool.eq_false_iff.mpr fun hready => ?_
  exact fdIsSet_ne_zero (readReady_iff.mp hready).2.1 h

theorem writeReady_null (h : c.writefds = 0) (fd : Nat) : c.writeReady fd = false := by
  refine Bool.eq_false_iff.mpr fun hready => ?_
  exact fdIsSet_ne_zero (writeReady_iff.mp hready).2.1 h

theorem lt_of_ready {fd : Nat} (hc : c.Valid) (h : (fd : Int) < c.nfds) : fd < 1024 := by
  have hle := hc.le
  omega

/-- The bitmaps are right exactly when bits they share are ready in both or in none. -/
theorem bits_iff (hc : c.Valid)
    (hmarks : Marks c.readfds c.writefds c.asked c.wanted c.answer memory) :
    ((∀ fd < 1024, fdIsSet memory c.readfds fd = c.readReady fd) ∧
        ∀ fd < 1024, fdIsSet memory c.writefds fd = c.writeReady fd) ↔
      (c.readfds ≠ 0 → c.writefds ≠ 0 →
        ∀ i j : Nat, i < 1024 → j < 1024 → 8 * c.readfds + i = 8 * c.writefds + j → c.readReady i = c.writeReady j) := by
  have hspan (set : Int) (fd : Nat) (hptr : 0 ≤ set) (hfd : fd < 1024) :
      Span set 128 ((8 * set.toNat + fd) / 8) := by
    unfold Span
    omega
  have hr (fd : Nat) (hfd : fd < 1024) (hset : c.readfds ≠ 0) :
      fdIsSet memory c.readfds fd = c.readReady fd ↔
        ∀ x, c.writeReady x = true → 8 * c.readfds.toNat + fd = 8 * c.writefds.toNat + x →
          c.readReady fd = true := by
    refine fdIsSet_done hset ?_
    rw [hmarks _ (.inl ⟨hset, hspan c.readfds fd (hc.read.nonneg hset) hfd⟩)]
    exact any_hits _
  have hw (fd : Nat) (hfd : fd < 1024) (hset : c.writefds ≠ 0) :
      fdIsSet memory c.writefds fd = c.writeReady fd ↔
        ∀ x, c.readReady x = true → 8 * c.writefds.toNat + fd = 8 * c.readfds.toNat + x →
          c.writeReady fd = true := by
    refine fdIsSet_done hset ?_
    rw [hmarks _ (.inr ⟨hset, hspan c.writefds fd (hc.write.nonneg hset) hfd⟩)]
    exact (any_hits _).trans or_comm
  constructor
  · rintro ⟨hreads, hwrites⟩ hrne hwne i j hi hj hp
    have hr0 := hc.read.nonneg hrne
    have hw0 := hc.write.nonneg hwne
    rw [Bool.eq_iff_iff]
    exact ⟨fun hready => (hw j hj hwne).mp (hwrites j hj) i hready (by omega),
      fun hready => (hr i hi hrne).mp (hreads i hi) j hready (by omega)⟩
  · intro hshared
    refine ⟨fun fd hfd => ?_, fun fd hfd => ?_⟩
    · by_cases hrne : c.readfds = 0
      · rw [readReady_null hrne, hrne, fdIsSet_null]
      · refine (hr fd hfd hrne).mpr fun x hx hp => ?_
        have hwne : c.writefds ≠ 0 := fdIsSet_ne_zero (writeReady_iff.mp hx).2.1
        have hr0 := hc.read.nonneg hrne
        have hw0 := hc.write.nonneg hwne
        rw [hshared hrne hwne fd x hfd (lt_of_ready hc (writeReady_iff.mp hx).1) (by omega), hx]
    · by_cases hwne : c.writefds = 0
      · rw [writeReady_null hwne, hwne, fdIsSet_null]
      · refine (hw fd hfd hwne).mpr fun x hx hp => ?_
        have hrne : c.readfds ≠ 0 := fdIsSet_ne_zero (readReady_iff.mp hx).2.1
        have hr0 := hc.read.nonneg hrne
        have hw0 := hc.write.nonneg hwne
        rw [← hshared hrne hwne x fd (lt_of_ready hc (readReady_iff.mp hx).1) hfd (by omega), hx]

theorem not_asks (hasked : c.asked = []) (fd : Nat) : c.asks fd = false := by
  refine Bool.eq_false_iff.mpr fun h => ?_
  have hmem := asks_mem h
  rw [hasked] at hmem
  cases hmem

theorem unbound_iff (hvalue : value ≠ -EBADF) :
    ((∃ fd, c.asks fd = true ∧ c.kernel.fds.table.get? (UInt32.ofNat fd) = none) → value = -EBADF) ↔
      ∀ fd, c.asks fd = true → (c.kernel.fds.table.get? (UInt32.ofNat fd)).isSome = true := by
  constructor
  · intro h fd hfd
    refine Option.isSome_iff_ne_none.mpr fun hnone => hvalue (h ⟨fd, hfd, hnone⟩)
  · rintro h ⟨fd, hfd, hnone⟩
    have hsome := h fd hfd
    rw [hnone] at hsome
    cases hsome

theorem agrees_idle (hasked : c.asked = []) :
    c.Agrees 0 c.kernel.memory ↔ c.Meets := by
  have hnone := not_asks hasked
  have hread (fd : Nat) : c.readReady fd = false :=
    Bool.eq_false_iff.mpr fun h => Bool.false_ne_true ((hnone fd).symm.trans (readReady_asks h))
  have hwrite (fd : Nat) : c.writeReady fd = false :=
    Bool.eq_false_iff.mpr fun h => Bool.false_ne_true ((hnone fd).symm.trans (writeReady_asks h))
  have hbound (fd : Nat) (h : c.asks fd = true) : False :=
    Bool.false_ne_true ((hnone fd).symm.trans h)
  constructor
  · intro h
    refine ⟨fun fd hfd => (hbound fd hfd).elim, fun _ fd hfd => ?_, fun _ => ?_, fun _ _ _ i j _ _ _ => ?_⟩
    · exact ⟨(h.read (le_refl 0) fd hfd).trans (hread fd), (h.write (le_refl 0) fd hfd).trans (hwrite fd)⟩
    · rw [hasked, List.countP_nil, List.countP_nil]
    · rw [hread, hwrite]
  · intro h
    have hclear := h.cleared hnone
    have hzero (set : Int) (hset : ∀ fd < 1024, fdIsSet c.kernel.memory set fd = false) :
        setBits c.kernel.memory set = 0 := by
      rw [setBits, List.countP_eq_zero]
      intro fd hfd
      rw [hset fd (List.mem_range.mp hfd)]
      exact Bool.false_ne_true
    refine ⟨fun _ fd hfd => (hclear fd hfd).1.trans (hread fd).symm,
      fun _ fd hfd => (hclear fd hfd).2.trans (hwrite fd).symm, fun _ => ?_,
      fun ⟨fd, hfd, _⟩ => (hbound fd hfd).elim⟩
    rw [hzero c.readfds fun fd hfd => (hclear fd hfd).1, hzero c.writefds fun fd hfd => (hclear fd hfd).2]
    rfl

theorem exists_asks (hasked : c.asked ≠ []) : ∃ fd, c.asks fd = true := by
  obtain ⟨fd, hfd⟩ := List.exists_mem_of_ne_nil _ hasked
  exact ⟨fd, (List.mem_filter.mp hfd).2⟩

theorem agrees_refused (hasked : c.asked ≠ []) (h : c.Refused)
    (hvalue : value = -EFAULT ∨ value = -EINVAL) :
    c.Agrees value memory ↔ c.Meets := by
  have hneg : ¬ 0 ≤ value := by rcases hvalue with rfl | rfl <;> decide
  have hne : value ≠ -EBADF := by rcases hvalue with rfl | rfl <;> decide
  obtain ⟨fd, hfd⟩ := exists_asks hasked
  constructor
  · intro ha
    refine ⟨(unbound_iff hne).mp ha.unbound, fun hnone => ?_, fun hnot => absurd h hnot,
      fun hnot => absurd h hnot⟩
    cases (hnone fd).symm.trans hfd
  · intro hm
    exact ⟨fun hv => absurd hv hneg, fun hv => absurd hv hneg, fun hv => absurd hv hneg,
      (unbound_iff hne).mpr hm.bound⟩

theorem agrees_done (hc : c.Valid)
    (hasked : c.asked ≠ []) (h : ¬ c.Refused)
    (hmarks : Marks c.readfds c.writefds c.asked c.wanted c.answer memory) :
    c.Agrees (answerCount c.asked c.answer)
        memory ↔ c.Meets := by
  have hpos : 0 ≤ ((answerCount c.asked c.answer : Nat) : Int) :=
    Int.natCast_nonneg _
  have hne : ((answerCount c.asked c.answer : Nat) : Int) ≠ -EBADF := by
    unfold EBADF
    omega
  have hiff := bits_iff hc hmarks
  have hcount (hr : ∀ fd < 1024, fdIsSet memory c.readfds fd = c.readReady fd)
      (hw : ∀ fd < 1024, fdIsSet memory c.writefds fd = c.writeReady fd) :
      setBits memory c.readfds + setBits memory c.writefds =
        (List.range 1024).countP c.readReady + (List.range 1024).countP c.writeReady := by
    have hcongr (set : Int) (ready : Nat → Bool) (hset : ∀ fd < 1024, fdIsSet memory set fd = ready fd) :
        setBits memory set = (List.range 1024).countP ready :=
      List.countP_congr fun fd hfd => by rw [hset fd (List.mem_range.mp hfd)]
    rw [hcongr c.readfds _ hr, hcongr c.writefds _ hw]
  obtain ⟨fd, hfd⟩ := exists_asks hasked
  constructor
  · intro ha
    have hr := ha.read hpos
    have hw := ha.write hpos
    refine ⟨(unbound_iff hne).mp ha.unbound, fun hnone => ?_, fun _ => ?_, fun _ => hiff.mp ⟨hr, hw⟩⟩
    · cases (hnone fd).symm.trans hfd
    · refine (answerCount_iff hc).mp ?_
      rw [← hcount hr hw]
      exact Int.ofNat_inj.mp (ha.count hpos)
  · intro hm
    obtain ⟨hr, hw⟩ := hiff.mpr (hm.shared h)
    refine ⟨fun _ => hr, fun _ => hw, fun _ => ?_, (unbound_iff hne).mpr hm.bound⟩
    have heq := (answerCount_iff hc).mpr (hm.balanced h)
    rw [← hcount hr hw] at heq
    rw [heq]
    rfl

/-- A call agrees with `poll` exactly under `Meets`, as seen at its last look. -/
theorem select_agrees_iff (hc : c.Valid)
    (h : Completes c.kernel c.sides c.nfds c.readfds c.writefds c.timeoutPtr cells sides' value memory) :
    (c.look cells sides').Agrees value memory ↔ (c.look cells sides').Meets := by
  have hlook : (c.look cells sides').Valid := ⟨hc.pos, hc.le, hc.read, hc.write⟩
  cases completes_outcome hc h with
  | idle hasked hvalue hmemory =>
    rw [hvalue, hmemory]
    exact agrees_idle hasked
  | refused hasked hrefused hvalue => exact agrees_refused hasked hrefused hvalue
  | done hasked hnot hvalue hmarks =>
    rw [hvalue]
    exact agrees_done hlook hasked hnot hmarks

-- ---------------------------------------------------------------------------
-- One descriptor, bound and not
-- ---------------------------------------------------------------------------

theorem completes_same (c : SelectCall) :
    ∃ value memory, Completes c.kernel c.sides c.nfds c.readfds c.writefds c.timeoutPtr c.kernel.cells c.sides
      value memory := by
  cases h : select c.kernel c.sides c.nfds c.readfds c.writefds c.timeoutPtr with
  | returns value memory => exact ⟨value, memory, .now h⟩
  | parks q => exact ⟨_, _, .later q h c.kernel.cells c.sides⟩

def marked (k : Kernel) : SelectCall where
  kernel := { k with memory := some (.owned markedPage) }
  sides := fun _ => default
  nfds := 1
  readfds := 100
  writefds := 0
  timeoutPtr := 0

theorem markedPage_fits : SetFits (some (.owned markedPage)) 100 := fun _ =>
  .of_size (by decide) (by decide) (by rw [markedPage_size]; decide)

theorem markedPage_isSet : fdIsSet (some (.owned markedPage)) 100 0 = true := by
  rw [← isSet_maskAt markedPage_fits (by decide), markedPage_mask]
  decide

theorem marked_valid (k : Kernel) : (marked k).Valid :=
  ⟨Int.zero_lt_one, (by decide : (1 : Int) ≤ 1024), markedPage_fits, fun h => absurd rfl h⟩

theorem marked_asks (k : Kernel) (fd : Nat) : (marked k).asks fd = true ↔ fd = 0 := by
  constructor
  · intro h
    have hlt : (fd : Int) < 1 := of_decide_eq_true (Bool.and_eq_true_iff.mp h).1
    omega
  · rintro rfl
    exact Bool.or_eq_true_iff.mpr (.inl markedPage_isSet)

theorem marked_asked (k : Kernel) : (marked k).asked = [0] :=
  List.filter_cons_of_pos ((marked_asks k 0).mpr rfl)

theorem marked_wanted (k : Kernel) : (marked k).wanted 0 = POLLIN := by
  have hset : fdIsSet (marked k).kernel.memory 100 0 = true := markedPage_isSet
  exact congrArg (eventsOf · false) hset

/-- Standard input is not closed, and so it is ready: the value is 1, with one bit. -/
theorem select_agrees_stdin :
    ∃ value memory, Completes (marked markedKernel).kernel (fun _ => default) 1 100 0 0 markedKernel.cells
        (fun _ => default) value memory ∧ (marked markedKernel).Agrees value memory := by
  obtain ⟨value, memory, h⟩ := completes_same (marked markedKernel)
  have hanswer : (marked markedKernel).answer 0 = POLLIN := by
    rw [answer, marked_wanted]
    rfl
  have hready : (marked markedKernel).readReady 0 = true :=
    readReady_iff.mpr ⟨by decide, markedPage_isSet, by rw [hanswer]; decide⟩
  have hmeets : (marked markedKernel).Meets := by
    refine ⟨fun fd hfd => ?_, fun hnone => ?_, fun _ => ?_, fun _ _ hw => absurd rfl hw⟩
    · rw [(marked_asks markedKernel fd).mp hfd]
      rfl
    · cases (hnone 0).symm.trans ((marked_asks markedKernel 0).mpr rfl)
    · rw [marked_asked, List.countP_singleton, List.countP_singleton, hready, writeReady_null rfl]
      rfl
  exact ⟨value, memory, h, (select_agrees_iff (marked_valid markedKernel) h).mpr hmeets⟩

def closedKernel : Kernel := { markedKernel with fds := (close markedKernel.fds 0).2 }

theorem marked_not_refused (k : Kernel) : ¬ (marked k).Refused := by
  intro href
  obtain ⟨mem, hcopy⟩ := markedPage_scratch
  have hscratch : (marked k).scratch = .ok (some (.owned mem)) := by
    rw [scratch, entries, marked_asked, List.map_singleton, marked_wanted, List.flatMap_singleton]
    exact hcopy
  cases href _ hscratch

/-- A descriptor that is not bound is asked for: the value is 1 and not `-EBADF`. -/
theorem select_unbound :
    ∃ memory, Completes (marked closedKernel).kernel (fun _ => default) 1 100 0 0 closedKernel.cells
        (fun _ => default) 1 memory ∧ ¬ (marked closedKernel).Agrees 1 memory := by
  obtain ⟨value, memory, h⟩ := completes_same (marked closedKernel)
  have hfree : (marked closedKernel).kernel.fds.table.get? 0 = none := rfl
  have hzero : u32Fd 0 = some 0 := by decide
  have hanswer : (marked closedKernel).answer 0 = POLLNVAL := by
    have hget : (u32Fd ((0 : Nat) : Int)).bind (marked closedKernel).kernel.fds.table.get? = none := by
      rw [Int.natCast_zero, hzero, Option.bind_some, hfree]
    rw [answer, pollOne, hget]
  have hvalue : value = 1 := by
    have hout : (marked closedKernel).Outcome value memory := completes_outcome (marked_valid closedKernel) h
    cases hout with
    | idle hasked => cases (marked_asked closedKernel).symm.trans hasked
    | refused _ hrefused => exact absurd hrefused (marked_not_refused closedKernel)
    | done _ _ hvalue =>
      rw [hvalue, marked_asked, answerCount, List.countP_singleton, hanswer]
      rfl
  subst hvalue
  refine ⟨memory, h, fun hagrees => ?_⟩
  have hbad := hagrees.unbound ⟨0, (marked_asks closedKernel 0).mpr rfl, hfree⟩
  revert hbad
  decide

end SelectCall

end EdgeLibos.Sys.FdSets
