import EdgeLibos.Futex.Call
import EdgeLibos.Lib.Overflow
import EdgeLibos.Sys.FdSets

/-!
# Clocks

The time calls. The host's two clocks are arguments, and so is the instant at which the
kernel started. `gettimeofday` adds to the wall clock what the monotonic clock shows below
the second since the start, so it tells the time of the wall clock only when that is
nothing. A call that sleeps shows how long.
-/

namespace EdgeLibos.Sys.Time

open Errno Lib
open Futex (i64At)
open FdSets (Fits copy_slice guestCopy_fits)

/-- A reading of both clocks, in nanoseconds. The microseconds since the epoch are an
`i64`, and an instant has an `i64` of seconds. -/
structure HostClock where
  wall : Int
  instant : Nat
  micros : -2 ^ 63 ≤ wall / 1000 ∧ wall / 1000 < 2 ^ 63
  seconds : instant < 2 ^ 63 * 1000000000

/-- `started_at.elapsed()`, which is never negative. -/
def HostClock.elapsed (c : HostClock) (startedAt : Nat) : Nat := c.instant - startedAt

def CLOCK_REALTIME : Int := 0
def CLOCK_MONOTONIC : Int := 1
def CLOCK_PROCESS_CPUTIME_ID : Int := 2
def CLOCK_THREAD_CPUTIME_ID : Int := 3
def CLOCK_MONOTONIC_RAW : Int := 4
def TIMER_ABSTIME : BitVec 32 := 1
def TIMESPEC_SIZE : Int := 16
def TIMEVAL_SIZE : Int := 16

/-- The clocks that all show the time since the start. -/
def sinceStart (clockid : Int) : Prop :=
  clockid = CLOCK_MONOTONIC ∨ clockid = CLOCK_MONOTONIC_RAW ∨ clockid = CLOCK_PROCESS_CPUTIME_ID ∨
    clockid = CLOCK_THREAD_CPUTIME_ID

instance (clockid : Int) : Decidable (sinceStart clockid) := inferInstanceAs (Decidable (_ ∨ _ ∨ _ ∨ _))

/-- Seconds and nanoseconds of a clock, `none` for one that is not honoured. -/
def computeTime (c : HostClock) (startedAt : Nat) (clockid : Int) : Option (Int × Int) :=
  if clockid = CLOCK_REALTIME then some (c.wall / 1000000000, c.wall % 1000000000)
  else if sinceStart clockid then
    let totalNs := c.elapsed startedAt
    some (Int.bmod (totalNs / 1000000000 : Nat) (2 ^ 64), (totalNs % 1000000000 : Nat))
  else none

def pairBytes (sec frac : Int) : List UInt8 := leI64 sec ++ leI64 frac

section
variable (memory : Option MemoryKind) (c : HostClock) (startedAt : Nat)

def clockGettime (clockid tp : Int) : Int × Option MemoryKind :=
  match computeTime c startedAt clockid with
  | none => (-EINVAL, memory)
  | some (sec, nsec) =>
    match guestCopy memory tp TIMESPEC_SIZE (pairBytes sec nsec) with
    | .error e => (e, memory)
    | .ok memory => (0, memory)

def timeOfDay : Int × Int :=
  let totalUs := c.elapsed startedAt / 1000
  let epoch := c.wall / 1000
  let sec := epoch.tdiv 1000000
  let usec := epoch.tmod 1000000 + (totalUs % 1000000 : Nat)
  (if usec ≥ 1000000 then sec + 1 else sec, usec.tmod 1000000)

def gettimeofday (tp : Int) : Int × Option MemoryKind :=
  let (sec, usec) := timeOfDay c startedAt
  match guestCopy memory tp TIMEVAL_SIZE (pairBytes sec usec) with
  | .error e => (e, memory)
  | .ok memory => (0, memory)

end

-- ---------------------------------------------------------------------------
-- Sleeping
-- ---------------------------------------------------------------------------

/-- How a call that may sleep ends, and for how many nanoseconds it slept. -/
inductive Slept
  | panics
  | returns (value : Int) (slept : Option Nat) (memory : Option MemoryKind)

/-- `Duration::from_nanos((sec as u64).saturating_mul(1_000_000_000) + nsec as u64)`. -/
def fromNanos (checks : Bool) (sec nsec : Int) : Option Nat :=
  unsigned checks 64 (saturating 64 (1000000000 * sec.toNat) + nsec.toNat)

def refusedTimespec (sec nsec : Int) : Prop := nsec < 0 ∨ ¬ (0 ≤ nsec ∧ nsec < 1000000000) ∨ sec < 0

instance (sec nsec : Int) : Decidable (refusedTimespec sec nsec) :=
  inferInstanceAs (Decidable (_ ∨ _ ∨ _))

/-- Nothing is left unslept. -/
def writeRem (memory : Option MemoryKind) (rem : Int) : Int × Option MemoryKind :=
  if rem ≠ 0 then
    match guestCopy memory rem TIMESPEC_SIZE (pairBytes 0 0) with
    | .error e => (e, memory)
    | .ok memory => (0, memory)
  else (0, memory)

def sleepRelative (checks : Bool) (memory : Option MemoryKind) (sec nsec rem : Int) : Slept :=
  match fromNanos checks sec nsec with
  | none => .panics
  | some dur => .returns (writeRem memory rem).1 (some dur) (writeRem memory rem).2

def nanosleep (checks : Bool) (memory : Option MemoryKind) (req rem : Int) : Slept :=
  match guestSlice memory req TIMESPEC_SIZE with
  | .error e => .returns e none memory
  | .ok bytes =>
    if refusedTimespec (i64At bytes 0) (i64At bytes 8) then .returns (-EINVAL) none memory
    else sleepRelative checks memory (i64At bytes 0) (i64At bytes 8) rem

def asU128 (n : Int) : Nat := (n % 2 ^ 128).toNat

/-- `(sec as u128) * 1_000_000_000 + (nsec as u128)`. -/
def totalNs (checks : Bool) (sec nsec : Int) : Option Nat := do
  let product ← unsigned checks 128 (1000000000 * asU128 sec)
  unsigned checks 128 (product + asU128 nsec)

/-- Nanoseconds from the current time to the requested one, cut to 64 bits; `none` when
that is past. The outer `none` is a panic. -/
def untilNanos (checks : Bool) (cur req : Int × Int) : Option (Option Nat) := do
  let curTotalNs ← totalNs checks cur.1 cur.2
  let reqTotalNs ← totalNs checks req.1 req.2
  if reqTotalNs ≤ curTotalNs then return none
  else return some ((reqTotalNs - curTotalNs) % 2 ^ 64)

def clockNanosleep (checks : Bool) (memory : Option MemoryKind) (c : HostClock) (startedAt : Nat)
    (clockid flags req rem : Int) : Slept :=
  if ¬ (clockid = CLOCK_REALTIME ∨ sinceStart clockid) then .returns (-EINVAL) none memory
  else
    match guestSlice memory req TIMESPEC_SIZE with
    | .error e => .returns e none memory
    | .ok bytes =>
      if refusedTimespec (i64At bytes 0) (i64At bytes 8) then .returns (-EINVAL) none memory
      else if BitVec.ofInt 32 flags &&& TIMER_ABSTIME ≠ 0 then
        match computeTime c startedAt clockid with
        | none => .returns (-EINVAL) none memory
        | some cur =>
          match untilNanos checks cur (i64At bytes 0, i64At bytes 8) with
          | none => .panics
          | some slept => .returns 0 slept memory
      else sleepRelative checks memory (i64At bytes 0) (i64At bytes 8) rem

-- ---------------------------------------------------------------------------
-- The time of day
-- ---------------------------------------------------------------------------

def pairAt (memory : Option MemoryKind) (tp : Int) : Option (Int × Int) :=
  (guestSlice memory tp 16).toOption.map fun bytes => (i64At bytes 0, i64At bytes 8)

theorem i64At_bounds (bytes : List UInt8) (off : Nat) :
    -2 ^ 63 ≤ i64At bytes off ∧ i64At bytes off < 2 ^ 63 :=
  ⟨BitVec.le_toInt _, BitVec.toInt_lt⟩

theorem i64At_pairBytes_sec (sec frac : Int) (h : -2 ^ 63 ≤ sec ∧ sec < 2 ^ 63) :
    i64At (pairBytes sec frac) 0 = sec := by
  rw [i64At, pairBytes, List.drop_zero, List.take_left' (leI64_length sec)]
  exact toInt_leI64 h

theorem i64At_pairBytes_frac (sec frac : Int) (h : -2 ^ 63 ≤ frac ∧ frac < 2 ^ 63) :
    i64At (pairBytes sec frac) 8 = frac := by
  rw [i64At, pairBytes, List.drop_left' (leI64_length sec), List.take_of_length_le (leI64_length frac).le]
  exact toInt_leI64 h

theorem pairBytes_length (sec frac : Int) : ((pairBytes sec frac).length : Int) = 16 := by
  simp [pairBytes]

theorem copy_pair (sec frac : Int) (hfits : Fits memory tp 16) (hsec : -2 ^ 63 ≤ sec ∧ sec < 2 ^ 63)
    (hfrac : -2 ^ 63 ≤ frac ∧ frac < 2 ^ 63) :
    ∃ memory', guestCopy memory tp 16 (pairBytes sec frac) = .ok memory' ∧
      pairAt memory' tp = some (sec, frac) := by
  obtain ⟨memory', hcopy⟩ := guestCopy_fits (pairBytes sec frac) hfits (pairBytes_length sec frac)
  refine ⟨memory', hcopy, ?_⟩
  rw [pairAt, copy_slice hcopy (pairBytes_length sec frac)]
  simp only [Except.toOption, Option.map_some, i64At_pairBytes_sec sec frac hsec,
    i64At_pairBytes_frac sec frac hfrac]

variable {c c' : HostClock} {startedAt : Nat}

/-- The microseconds that have passed since the last full second from the start. -/
def HostClock.overSecond (c : HostClock) (startedAt : Nat) : Nat := c.elapsed startedAt / 1000 % 1000000

theorem tmod_carry (h : -1000000 < u ∧ u < 2000000) :
    u.tmod 1000000 = if u ≥ 1000000 then u - 1000000 else u := by
  rcases Int.lt_or_le u 0 with hneg | hnonneg
  · have hback : (-u).tmod 1000000 = -u := by
      rw [Int.tmod_eq_emod_of_nonneg (by omega)]
      omega
    rw [Int.neg_tmod] at hback
    rw [if_neg (by omega)]
    omega
  · rw [Int.tmod_eq_emod_of_nonneg hnonneg]
    split <;> omega

/-- The time told is that of the wall clock and the part of a second since the start. -/
theorem timeOfDay_eq (c : HostClock) (startedAt : Nat) :
    (timeOfDay c startedAt).1 * 1000000 + (timeOfDay c startedAt).2 =
        c.wall / 1000 + c.overSecond startedAt ∧
      -1000000 < (timeOfDay c startedAt).2 ∧ (timeOfDay c startedAt).2 < 1000000 ∧
      (0 ≤ (timeOfDay c startedAt).2 ↔ 0 ≤ (c.wall / 1000).tmod 1000000 + c.overSecond startedAt) := by
  have hover : c.overSecond startedAt < 1000000 := Nat.mod_lt _ (by decide)
  have hparts := Int.mul_tdiv_add_tmod (c.wall / 1000) 1000000
  have hlt : (c.wall / 1000).tmod 1000000 < 1000000 := Int.tmod_lt_of_pos _ (by decide)
  have hgt : -1000000 < (c.wall / 1000).tmod 1000000 := by
    have hneg : (-(c.wall / 1000)).tmod 1000000 < 1000000 := Int.tmod_lt_of_pos _ (by decide)
    rw [Int.neg_tmod] at hneg
    omega
  have hcarry := tmod_carry (u := (c.wall / 1000).tmod 1000000 + c.overSecond startedAt) ⟨by omega, by omega⟩
  simp only [timeOfDay, HostClock.overSecond] at *
  rw [hcarry]
  split <;> omega

theorem timeOfDay_bounds (c : HostClock) (startedAt : Nat) :
    (-2 ^ 63 ≤ (timeOfDay c startedAt).1 ∧ (timeOfDay c startedAt).1 < 2 ^ 63) ∧
      -2 ^ 63 ≤ (timeOfDay c startedAt).2 ∧ (timeOfDay c startedAt).2 < 2 ^ 63 := by
  obtain ⟨hsum, hlow, hhigh, -⟩ := timeOfDay_eq c startedAt
  have hover : c.overSecond startedAt < 1000000 := Nat.mod_lt _ (by decide)
  have hwall := c.micros
  omega

theorem gettimeofday_told (c : HostClock) (startedAt : Nat) (hfits : Fits memory tp 16) :
    (gettimeofday memory c startedAt tp).1 = 0 ∧
      pairAt (gettimeofday memory c startedAt tp).2 tp = some (timeOfDay c startedAt) := by
  obtain ⟨hsec, husec⟩ := timeOfDay_bounds c startedAt
  obtain ⟨memory', hcopy, hpair⟩ := copy_pair _ _ hfits hsec husec
  simp only [gettimeofday, TIMEVAL_SIZE, hcopy, hpair, Prod.mk.eta, and_self]

theorem clockGettime_told (c : HostClock) (startedAt : Nat) (hfits : Fits memory tp 16) :
    (clockGettime memory c startedAt CLOCK_REALTIME tp).1 = 0 ∧
      pairAt (clockGettime memory c startedAt CLOCK_REALTIME tp).2 tp =
        some (c.wall / 1000000000, c.wall % 1000000000) := by
  have hwall := c.micros
  obtain ⟨memory', hcopy, hpair⟩ := copy_pair (c.wall / 1000000000) (c.wall % 1000000000) hfits
    (by omega) (by omega)
  simp only [clockGettime, computeTime, if_true, TIMESPEC_SIZE, hcopy, hpair, and_self]

/-- `gettimeofday` returns and leaves microseconds below a million, which with its seconds
are the time that `clock_gettime` leaves, rounded down. -/
def TellsWallTime (memory : Option MemoryKind) (c : HostClock) (startedAt : Nat) (tp : Int) : Prop :=
  ∃ sec usec rsec rnsec, gettimeofday memory c startedAt tp = (0, (gettimeofday memory c startedAt tp).2) ∧
    pairAt (gettimeofday memory c startedAt tp).2 tp = some (sec, usec) ∧
    pairAt (clockGettime memory c startedAt CLOCK_REALTIME tp).2 tp = some (rsec, rnsec) ∧
    0 ≤ usec ∧ usec < 1000000 ∧ sec * 1000000 + usec = (rsec * 1000000000 + rnsec) / 1000

/-- The microseconds since the epoch that a call leaves. -/
def toldMicros (memory : Option MemoryKind) (c : HostClock) (startedAt : Nat) (tp : Int) : Option Int :=
  (pairAt (gettimeofday memory c startedAt tp).2 tp).map fun told => told.1 * 1000000 + told.2

/-- The kernel has run for whole seconds, to the microsecond, and a wall clock before the
epoch shows a whole second. -/
def OnTheSecond (c : HostClock) (startedAt : Nat) : Prop :=
  c.overSecond startedAt = 0 ∧ (0 ≤ c.wall ∨ c.wall / 1000 % 1000000 = 0)

theorem tmod_nonneg_iff (c : HostClock) :
    0 ≤ (c.wall / 1000).tmod 1000000 ↔ 0 ≤ c.wall ∨ c.wall / 1000 % 1000000 = 0 := by
  rcases Int.lt_or_le c.wall 0 with hneg | hnonneg
  · have hback : (-(c.wall / 1000)).tmod 1000000 = -(c.wall / 1000) % 1000000 :=
      Int.tmod_eq_emod_of_nonneg (by omega)
    rw [Int.neg_tmod] at hback
    omega
  · rw [Int.tmod_eq_emod_of_nonneg (by omega)]
    omega

theorem tellsWallTime_iff (hfits : Fits memory tp 16) :
    TellsWallTime memory c startedAt tp ↔ OnTheSecond c startedAt := by
  obtain ⟨hzero, htold⟩ := gettimeofday_told c startedAt hfits
  obtain ⟨-, hclock⟩ := clockGettime_told c startedAt hfits
  obtain ⟨hsum, -, hhigh, hsign⟩ := timeOfDay_eq c startedAt
  generalize timeOfDay c startedAt = told at htold hsum hhigh hsign
  have hwhole := tmod_nonneg_iff c
  have hnanos : (c.wall / 1000000000 * 1000000000 + c.wall % 1000000000) / 1000 = c.wall / 1000 := by omega
  constructor
  · rintro ⟨sec, usec, rsec, rnsec, -, hpair, hreal, hlow, -, hsame⟩
    cases htold.symm.trans hpair
    cases hclock.symm.trans hreal
    have hover : c.overSecond startedAt = 0 := by omega
    refine ⟨hover, hwhole.mp ?_⟩
    simpa [hover] using hsign.mp hlow
  · rintro ⟨hover, hwall⟩
    refine ⟨_, _, _, _, Prod.ext hzero rfl, htold, hclock, hsign.mpr ?_, hhigh, ?_⟩
    · simpa [hover] using hwhole.mpr hwall
    · omega

/-- Of two calls, the second with the wall clock not set back, both tell the wall clock's
time and in order exactly when both come whole seconds after the start. -/
theorem gettimeofday_tells_wall_time_iff {memory memory' : Option MemoryKind} {c c' : HostClock}
    {startedAt : Nat} (hfits : Fits memory tp 16) (hfits' : Fits memory' tp' 16)
    (hwall : c.wall ≤ c'.wall) :
    (TellsWallTime memory c startedAt tp ∧ TellsWallTime memory' c' startedAt tp' ∧
      ∀ t ∈ toldMicros memory c startedAt tp, ∀ t' ∈ toldMicros memory' c' startedAt tp', t ≤ t') ↔
    OnTheSecond c startedAt ∧ OnTheSecond c' startedAt := by
  rw [tellsWallTime_iff hfits, tellsWallTime_iff hfits']
  refine ⟨fun ⟨h, h', _⟩ => ⟨h, h'⟩, fun ⟨h, h'⟩ => ⟨h, h', ?_⟩⟩
  intro t ht t' ht'
  rw [toldMicros, (gettimeofday_told c startedAt hfits).2] at ht
  rw [toldMicros, (gettimeofday_told c' startedAt hfits').2] at ht'
  obtain rfl := Option.some.inj ht
  obtain rfl := Option.some.inj ht'
  have hover := h.1
  have hover' := h'.1
  have hsum := (timeOfDay_eq c startedAt).1
  have hsum' := (timeOfDay_eq c' startedAt).1
  dsimp only
  omega

theorem zeroPage_fits : Fits (some (.owned LinearMemory.zeroPage)) 16 16 :=
  .of_size (by decide) (by decide) (by rw [LinearMemory.zeroPage_size]; decide)

theorem epoch_micros : -2 ^ 63 ≤ (0 : Int) / 1000 ∧ (0 : Int) / 1000 < 2 ^ 63 := by decide

theorem tick_micros : -2 ^ 63 ≤ (1000 : Int) / 1000 ∧ (1000 : Int) / 1000 < 2 ^ 63 := by decide

theorem second_fits : 1000000000 < 2 ^ 63 * 1000000000 := by decide

theorem under_second_fits : 999999000 < 2 ^ 63 * 1000000000 := by decide

def beforeSecond : HostClock :=
  { wall := 0, instant := 999999000, micros := epoch_micros, seconds := under_second_fits }

def atSecond : HostClock :=
  { wall := 1000, instant := 1000000000, micros := tick_micros, seconds := second_fits }

theorem onTheSecond_atSecond : OnTheSecond atSecond 0 := by
  constructor
  · decide
  · exact .inl (by decide)

theorem gettimeofday_tells_wall_time_at_second :
    Fits (some (.owned LinearMemory.zeroPage)) 16 16 ∧
      TellsWallTime (some (.owned LinearMemory.zeroPage)) atSecond 0 16 :=
  ⟨zeroPage_fits, ((gettimeofday_tells_wall_time_iff zeroPage_fits zeroPage_fits (le_refl _)).mpr
    ⟨onTheSecond_atSecond, onTheSecond_atSecond⟩).1⟩

/-- A microsecond later by both clocks, the time told is almost a second earlier. -/
theorem gettimeofday_runs_back : Fits (some (.owned LinearMemory.zeroPage)) 16 16 ∧
    beforeSecond.wall ≤ atSecond.wall ∧ beforeSecond.instant ≤ atSecond.instant ∧
    ¬ (TellsWallTime (some (.owned LinearMemory.zeroPage)) beforeSecond 0 16 ∧
      TellsWallTime (some (.owned LinearMemory.zeroPage)) atSecond 0 16 ∧
      ∀ t ∈ toldMicros (some (.owned LinearMemory.zeroPage)) beforeSecond 0 16,
        ∀ t' ∈ toldMicros (some (.owned LinearMemory.zeroPage)) atSecond 0 16, t ≤ t') := by
  refine ⟨zeroPage_fits, by decide, by decide, fun ⟨_, _, hordered⟩ => ?_⟩
  have hbefore : toldMicros (some (.owned LinearMemory.zeroPage)) beforeSecond 0 16 = some 999999 := by
    rw [toldMicros, (gettimeofday_told beforeSecond 0 zeroPage_fits).2]
    decide
  have hat : toldMicros (some (.owned LinearMemory.zeroPage)) atSecond 0 16 = some 1 := by
    rw [toldMicros, (gettimeofday_told atSecond 0 zeroPage_fits).2]
    decide
  exact absurd (hordered _ hbefore _ hat) (by decide)

end EdgeLibos.Sys.Time
