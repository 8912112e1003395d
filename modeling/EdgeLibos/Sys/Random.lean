import EdgeLibos.Sys.Probe

/-!
# `getrandom`

The kernel's generator is seeded once at boot. A call draws its bytes before it
looks at the guest's memory, so a call with a bad buffer still moves the
generator on. What a call answers depends on the generator and on the size of
the memory, not on what the memory holds.
-/

namespace EdgeLibos

structure Generator where
  State : Type
  fromSeed : RngSeed → State
  fillBytes : State → Nat → List UInt8 × State
  length_fillBytes : ∀ s len, (fillBytes s len).1.length = len

def Generator.state (g : Generator) (rng : SmallRng) : g.State :=
  rng.draws.foldl (fun s len => (g.fillBytes s len).2) (g.fromSeed rng.seed)

def SmallRng.fillBytes (g : Generator) (rng : SmallRng) (len : Nat) : List UInt8 × SmallRng :=
  ((g.fillBytes (g.state rng) len).1, { rng with draws := rng.draws ++ [len] })

@[simp] theorem SmallRng.length_fillBytes (g : Generator) (rng : SmallRng) (len : Nat) :
    (rng.fillBytes g len).1.length = len := g.length_fillBytes _ _

theorem Generator.state_fillBytes (g : Generator) (rng : SmallRng) (len : Nat) :
    g.state (rng.fillBytes g len).2 = (g.fillBytes (g.state rng) len).2 := by
  simp [Generator.state, SmallRng.fillBytes]

namespace Sys

open Errno

def GRND_NONBLOCK : UInt32 := 0x01
def GRND_RANDOM : UInt32 := 0x02

/-- The most one request may ask for. -/
def MAX_LEN : Nat := 4096

/-- The three arguments that are read. -/
structure GetrandomArgs where
  buf : Int
  buflen : Int
  flags : Int
  deriving DecidableEq, Repr

def getrandom (g : Generator) (k : Kernel) (a : GetrandomArgs) : Int × Kernel :=
  let flags := UInt32.ofInt a.flags
  if flags &&& ~~~(GRND_NONBLOCK ||| GRND_RANDOM) ≠ 0 then (-ENOSYS, k)
  else if a.buflen < 0 then (-EINVAL, k)
  else
    let len := a.buflen.toNat
    if len > MAX_LEN then (-EINVAL, k)
    else if len = 0 then (0, k)
    else
      let (tmp, rng) := k.rng.fillBytes g len
      let k := { k with rng }
      match k.ownedMemory with
      | .error e => (e, k)
      | .ok _ =>
        match guestCopy k.memory a.buf len tmp with
        | .error e => (e, k)
        | .ok memory => (len, { k with memory })

def received (memory : Option MemoryKind) (buf ret : Int) : List UInt8 :=
  (guestSlice memory buf ret).toOption.getD []

/-- What the guest sees of a sequence of calls: each return value with the bytes. -/
def answers (g : Generator) : Kernel → List GetrandomArgs → List (Int × List UInt8)
  | _, [] => []
  | k, a :: rest =>
    let (ret, k) := getrandom g k a
    (ret, received k.memory a.buf ret) :: answers g k rest

def afterCalls (g : Generator) (k : Kernel) (calls : List GetrandomArgs) : Kernel :=
  calls.foldl (fun k a => (getrandom g k a).2) k

-- ---------------------------------------------------------------------------
-- One call
-- ---------------------------------------------------------------------------

def GetrandomArgs.Draws (a : GetrandomArgs) : Prop :=
  UInt32.ofInt a.flags &&& ~~~(GRND_NONBLOCK ||| GRND_RANDOM) = 0 ∧ 0 < a.buflen ∧ a.buflen ≤ MAX_LEN

instance (a : GetrandomArgs) : Decidable a.Draws :=
  inferInstanceAs (Decidable (_ ∧ _))

/-- What a call that never gets there returns. -/
def GetrandomArgs.refusal (a : GetrandomArgs) : Int :=
  if UInt32.ofInt a.flags &&& ~~~(GRND_NONBLOCK ||| GRND_RANDOM) ≠ 0 then -ENOSYS
  else if a.buflen = 0 then 0 else -EINVAL

def bufferRoom (memory : Option MemoryKind) (buf : Int) (len : Nat) : Except Int Unit :=
  match ownedOf memory with
  | .error e => .error e
  | .ok mem => if 0 ≤ buf ∧ buf.toNat + len ≤ mem.size then .ok () else .error (-EFAULT)

theorem guestCopy_no_room (hmem : ownedOf memory = .ok mem) (h : bufferRoom memory buf len = .error e) :
    guestCopy memory buf len new = .error e := by
  simp only [bufferRoom, hmem] at h
  split at h
  · cases h
  · rename_i hfit
    cases h
    unfold guestCopy
    split
    · rfl
    · rename_i hneg
      simp only [hmem, Int.toNat_natCast]
      exact dif_neg fun hle => hfit ⟨by omega, hle.1⟩

theorem guestCopy_room (h : bufferRoom memory buf len = .ok u) (hnew : new.length = len) :
    ∃ memory', guestCopy memory buf len new = .ok memory' ∧ received memory' buf len = new ∧
      bufferRoom memory' = bufferRoom memory := by
  subst hnew
  unfold bufferRoom at h
  cases hmem : ownedOf memory with
  | error e => simp [hmem] at h
  | ok mem =>
    simp only [hmem] at h
    split at h
    · rename_i hfit
      obtain ⟨hbuf, hfit⟩ := hfit
      obtain rfl := ownedOf_ok hmem
      have hcast : ((buf.toNat : Nat) : Int) = buf := Int.toNat_of_nonneg hbuf
      refine ⟨some (.owned (mem.write buf.toNat new hfit)), ?_, ?_, ?_⟩
      · rw [guestCopy, if_neg (by omega)]
        simp only [hmem, Int.toNat_natCast]
        exact dif_pos ⟨hfit, Nat.le_refl _⟩
      · have hslice := guestSlice_of_load (LinearMemory.load_write hfit) (Nat.le_refl new.length)
        rw [hcast] at hslice
        simp [received, hslice, Except.toOption]
      · funext buf' len'
        simp only [bufferRoom, ownedOf, LinearMemory.write_size]
    · cases h

theorem room_error_neg (h : bufferRoom memory buf len = .error e) : e < 0 := by
  unfold bufferRoom ownedOf at h
  cases memory with
  | none =>
    cases h
    decide
  | some kind =>
    cases kind with
    | owned mem =>
      simp only at h
      split at h
      · cases h
      · cases h
        decide
    | shared mem =>
      cases h
      decide

theorem received_of_nonpos (h : ret ≤ 0) : received memory buf ret = [] := by
  unfold received guestSlice
  split
  · rfl
  · rename_i hneg
    obtain rfl : ret = 0 := by omega
    cases ownedOf memory with
    | error e => rfl
    | ok mem =>
      simp only [Int.toNat_zero, List.take_zero]
      split <;> rfl

section
variable {g : Generator} {k : Kernel} {a : GetrandomArgs}

theorem getrandom_refused (h : ¬ a.Draws) : getrandom g k a = (a.refusal, k) := by
  by_cases hf : UInt32.ofInt a.flags &&& ~~~(GRND_NONBLOCK ||| GRND_RANDOM) = 0
  · have hlen : ¬ (0 < a.buflen ∧ a.buflen ≤ MAX_LEN) := fun hlen => h ⟨hf, hlen⟩
    simp only [getrandom, GetrandomArgs.refusal, hf, ne_eq, not_true_eq_false, if_false]
    rcases Int.lt_trichotomy a.buflen 0 with hneg | hzero | hpos
    · rw [if_pos hneg, if_neg (by omega)]
    · simp [hzero]
    · rw [if_neg (by omega), if_pos (by omega), if_neg (by omega)]
  · simp only [getrandom, GetrandomArgs.refusal, hf, ne_eq, not_false_eq_true, if_true]

theorem getrandom_draws (h : a.Draws) : getrandom g k a =
    match ownedOf k.memory with
    | .error e => (e, { k with rng := (k.rng.fillBytes g a.buflen.toNat).2 })
    | .ok _ =>
      match guestCopy k.memory a.buf a.buflen.toNat (k.rng.fillBytes g a.buflen.toNat).1 with
      | .error e => (e, { k with rng := (k.rng.fillBytes g a.buflen.toNat).2 })
      | .ok memory =>
        ((a.buflen.toNat : Int), { k with memory, rng := (k.rng.fillBytes g a.buflen.toNat).2 }) := by
  obtain ⟨hf, hpos, hmax⟩ := h
  simp only [getrandom, hf, ne_eq, not_true_eq_false, if_false]
  rw [if_neg (by omega), if_neg (by omega), if_neg (by omega)]
  rfl

theorem getrandom_no_room (h : a.Draws) (hroom : bufferRoom k.memory a.buf a.buflen.toNat = .error e) :
    getrandom g k a = (e, { k with rng := (k.rng.fillBytes g a.buflen.toNat).2 }) := by
  rw [getrandom_draws h]
  cases hmem : ownedOf k.memory with
  | error e' =>
    simp only [bufferRoom, hmem, Except.error.injEq] at hroom
    simp only [hroom]
  | ok mem => simp only [guestCopy_no_room hmem hroom]

theorem getrandom_room (h : a.Draws) (hroom : bufferRoom k.memory a.buf a.buflen.toNat = .ok u) :
    ∃ memory, getrandom g k a =
        (a.buflen, { k with memory, rng := (k.rng.fillBytes g a.buflen.toNat).2 }) ∧
      received memory a.buf a.buflen = (k.rng.fillBytes g a.buflen.toNat).1 ∧
      bufferRoom memory = bufferRoom k.memory := by
  have hlen : (a.buflen.toNat : Int) = a.buflen := Int.toNat_of_nonneg (Int.le_of_lt h.2.1)
  obtain ⟨memory, hcopy, hgot, hsame⟩ := guestCopy_room hroom (k.rng.length_fillBytes g a.buflen.toNat)
  refine ⟨memory, ?_, ?_, hsame⟩
  · rw [getrandom_draws h]
    cases hmem : ownedOf k.memory with
    | error e => simp [bufferRoom, hmem] at hroom
    | ok mem =>
      simp only [hcopy]
      rw [hlen]
  · rwa [hlen] at hgot

/-- Only the memory and the generator differ. -/
def Framed (k k' : Kernel) : Prop := ∃ memory rng, k' = { k with memory, rng }

theorem Framed.refl (k : Kernel) : Framed k k := ⟨_, _, rfl⟩

theorem Framed.trans {k₁ k₂ k₃ : Kernel} : Framed k₁ k₂ → Framed k₂ k₃ → Framed k₁ k₃ := by
  rintro ⟨memory, rng, rfl⟩ ⟨memory', rng', rfl⟩
  exact ⟨memory', rng', rfl⟩

def answerOf (g : Generator) (s : g.State) (space : Int → Nat → Except Int Unit) (a : GetrandomArgs) :
    Int × List UInt8 :=
  if a.Draws then
    match space a.buf a.buflen.toNat with
    | .ok _ => (a.buflen, (g.fillBytes s a.buflen.toNat).1)
    | .error e => (e, [])
  else (a.refusal, [])

theorem getrandom_ok (g : Generator) (k : Kernel) (a : GetrandomArgs) :
    ((getrandom g k a).1, received (getrandom g k a).2.memory a.buf (getrandom g k a).1) =
        answerOf g (g.state k.rng) (bufferRoom k.memory) a ∧
      bufferRoom (getrandom g k a).2.memory = bufferRoom k.memory ∧
      (getrandom g k a).2.rng = (if a.Draws then (k.rng.fillBytes g a.buflen.toNat).2 else k.rng) ∧
      Framed k (getrandom g k a).2 := by
  by_cases h : a.Draws
  · simp only [answerOf, h, if_true]
    cases hroom : bufferRoom k.memory a.buf a.buflen.toNat with
    | error e =>
      rw [getrandom_no_room h hroom]
      refine ⟨?_, rfl, rfl, ⟨_, _, rfl⟩⟩
      simp only [received_of_nonpos (Int.le_of_lt (room_error_neg hroom))]
    | ok u =>
      obtain ⟨memory, hcall, hgot, hsame⟩ := getrandom_room (g := g) h hroom
      rw [hcall]
      refine ⟨?_, hsame, rfl, ⟨_, _, rfl⟩⟩
      simp only [hgot]
      rfl
  · have hneg : a.refusal ≤ 0 := by
      unfold GetrandomArgs.refusal
      split_ifs <;> decide
    simp only [answerOf, h, if_false, getrandom_refused h, received_of_nonpos hneg, true_and]
    exact .refl k

-- ---------------------------------------------------------------------------
-- Sequences of calls
-- ---------------------------------------------------------------------------

theorem answers_cons (g : Generator) (k : Kernel) (a : GetrandomArgs) (rest : List GetrandomArgs) :
    answers g k (a :: rest) =
      answerOf g (g.state k.rng) (bufferRoom k.memory) a :: answers g (getrandom g k a).2 rest := by
  rw [← (getrandom_ok g k a).1]
  rfl

theorem state_getrandom (g : Generator) (k : Kernel) (a : GetrandomArgs) :
    g.state (getrandom g k a).2.rng =
      if a.Draws then (g.fillBytes (g.state k.rng) a.buflen.toNat).2 else g.state k.rng := by
  rw [(getrandom_ok g k a).2.2.1]
  split
  · exact g.state_fillBytes _ _
  · rfl

theorem answers_congr {k k' : Kernel} (hs : g.state k.rng = g.state k'.rng)
    (hroom : bufferRoom k.memory = bufferRoom k'.memory) (calls : List GetrandomArgs) :
    answers g k calls = answers g k' calls := by
  induction calls generalizing k k' with
  | nil => rfl
  | cons a rest ih =>
    rw [answers_cons, answers_cons, hs, hroom]
    refine congrArg _ (ih ?_ ?_)
    · rw [state_getrandom, state_getrandom, hs]
    · rw [(getrandom_ok g k a).2.1, (getrandom_ok g k' a).2.1, hroom]

theorem room_of_no_buffer (buf : Int) (hb : ¬ HasBuffer memory) (hlen : 0 < len) :
    ∃ e, bufferRoom memory buf len = .error e := by
  unfold bufferRoom
  cases hmem : ownedOf memory with
  | error e => exact ⟨e, rfl⟩
  | ok mem =>
    refine ⟨-EFAULT, if_neg ?_⟩
    rintro ⟨-, hfit⟩
    exact hb ⟨mem, ownedOf_ok hmem, by omega⟩

theorem hasBuffer_of_room (h : bufferRoom memory = bufferRoom memory') (hb : HasBuffer memory) :
    HasBuffer memory' := by
  by_contra hno
  obtain ⟨e, he⟩ := room_of_no_buffer 0 hno (Nat.lt_succ_self 0)
  obtain ⟨mem, rfl, hsize⟩ := hb
  have hsize : 1 ≤ mem.size := hsize
  rw [← h] at he
  simp [bufferRoom, ownedOf, hsize] at he

theorem answers_no_buffer {k k' : Kernel} (hb : ¬ HasBuffer k.memory)
    (hroom : bufferRoom k.memory = bufferRoom k'.memory) (calls : List GetrandomArgs) :
    answers g k calls = answers g k' calls := by
  induction calls generalizing k k' with
  | nil => rfl
  | cons a rest ih =>
    have hsame := (getrandom_ok g k a).2.1
    have hrest : answers g (getrandom g k a).2 rest = answers g (getrandom g k' a).2 rest := by
      refine ih (fun hb' => hb (hasBuffer_of_room hsame hb')) ?_
      rw [hsame, (getrandom_ok g k' a).2.1, hroom]
    rw [answers_cons, answers_cons, hrest, ← hroom]
    refine congrArg (fun x => x :: _) ?_
    unfold answerOf
    by_cases h : a.Draws
    · obtain ⟨e, he⟩ := room_of_no_buffer a.buf hb
        (show 0 < a.buflen.toNat from Int.pos_iff_toNat_pos.mp h.2.1)
      simp only [he]
    · simp only [h, if_false]

/-- Calls change the memory and the generator, and not the room. -/
structure After (g : Generator) (k : Kernel) (calls : List GetrandomArgs) (k' : Kernel) : Prop where
  frame : Framed k k'
  room : bufferRoom k'.memory = bufferRoom k.memory
  rng : k'.rng = { k.rng with draws := k.rng.draws ++
    (calls.filter (·.Draws)).map (·.buflen.toNat) }

theorem after_calls (g : Generator) (k : Kernel) (calls : List GetrandomArgs) :
    After g k calls (afterCalls g k calls) := by
  induction calls generalizing k with
  | nil => exact ⟨.refl k, rfl, by simp [afterCalls]⟩
  | cons a rest ih =>
    obtain ⟨-, hroom, hrng, hframe⟩ := getrandom_ok g k a
    have hrest := ih (getrandom g k a).2
    refine ⟨hframe.trans hrest.frame, hrest.room.trans hroom, hrest.rng.trans ?_⟩
    rw [hrng]
    by_cases h : a.Draws
    · simp [h, SmallRng.fillBytes]
    · simp [h]

end

end Sys

end EdgeLibos
