import EdgeLibos.Sys.Time

/-!
# Times that a guest supplies

How each call turns a `struct timespec` or a `struct timeval` into the time it waits, or
into the time it stamps on a file. A product saturates but the sum that follows it does
not, `select` does not saturate at all, an absolute sleep is cut to 64 bits, and a file's
time panics. What the call does then depends on whether the build checks for overflow.
-/

namespace EdgeLibos.Sys.Timeouts

open Errno Lib Time
open Futex (i64At decodeTimespec)

/-- The calls, with what they read of the clocks. -/
inductive Handler
  | futexWait
  | nanosleep
  | clockNanosleep
  | clockNanosleepUntil (c : HostClock) (startedAt : Nat) (clockid : Int)
  | ppoll (c : HostClock)
  | epollPwait
  | select (c : HostClock)
  | utimensat

inductive Timeout
  | refused
  | panics
  | forever
  | lasts (amount : Nat)
  deriving DecidableEq, Repr

def Timeout.ofPanic : Option Nat → Timeout
  | none => .panics
  | some amount => .lasts amount

/-- `decode_timespec` on the bytes it reads. -/
def futexTimeout (checks : Bool) (bytes : List UInt8) : Timeout :=
  let sec := i64At bytes 0
  let nsec := i64At bytes 8
  if ¬ (0 ≤ nsec ∧ nsec < 1000000000) ∨ sec < 0 then .refused else .ofPanic (fromNanos checks sec nsec)

def sleepTimeout (checks : Bool) (bytes : List UInt8) : Timeout :=
  if refusedTimespec (i64At bytes 0) (i64At bytes 8) then .refused
  else .ofPanic (fromNanos checks (i64At bytes 0) (i64At bytes 8))

/-- A time that is past is not waited for. -/
def untilTimeout (checks : Bool) (cur : Option (Int × Int)) (bytes : List UInt8) : Timeout :=
  if refusedTimespec (i64At bytes 0) (i64At bytes 8) then .refused
  else
    match cur with
    | none => .refused
    | some cur =>
      match untilNanos checks cur (i64At bytes 0, i64At bytes 8) with
      | none => .panics
      | some slept => .lasts (slept.getD 0)

/-- `ppoll` and `epoll_pwait`: milliseconds, `none` for a panic. -/
def timespecMillis (checks : Bool) (sec nsec : Int) : Option Int :=
  signed checks 64 (min (sec * 1000) (2 ^ 63 - 1) + nsec / 1000000)

def timevalMillis (checks : Bool) (sec usec : Int) : Option Int := do
  let product ← signed checks 64 (sec * 1000)
  signed checks 64 (product + usec / 1000)

/-- The deadline of `poll`: an instant that cannot be represented is a panic. -/
def pollDeadline (c : HostClock) (timeoutMs : Int) : Timeout :=
  if timeoutMs = 0 then .lasts 0
  else if timeoutMs > 0 then
    if c.instant + 1000000 * timeoutMs.toNat < 2 ^ 63 * 1000000000 then .lasts timeoutMs.toNat else .panics
  else .forever

def epollTimeout (timeoutMs : Int) : Timeout := if timeoutMs ≥ 0 then .lasts timeoutMs.toNat else .forever

def ppollTimeout (checks : Bool) (deadline : Int → Timeout) (bytes : List UInt8) : Timeout :=
  let sec := i64At bytes 0
  let nsec := i64At bytes 8
  if sec < 0 ∨ nsec < 0 ∨ ¬ (0 ≤ nsec ∧ nsec < 1000000000) then .refused
  else
    match timespecMillis checks sec nsec with
    | none => .panics
    | some ms => deadline ms

def selectTimeout (checks : Bool) (c : HostClock) (bytes : List UInt8) : Timeout :=
  let sec := i64At bytes 0
  let usec := i64At bytes 8
  if sec < 0 ∨ usec < 0 then .refused
  else
    match timevalMillis checks sec usec with
    | none => .panics
    | some ms => pollDeadline c ms

/-- A `SystemTime` and a `Duration`, both in nanoseconds: its seconds are an `i64`. -/
def addDuration (time dur : Nat) : Option Nat :=
  if time + dur < 2 ^ 63 * 1000000000 then some (time + dur) else none

/-- A time before the epoch becomes the epoch. -/
def timespecFromBytes (bytes : List UInt8) : Option Nat :=
  let sec := i64At bytes 0
  let nsec := i64At bytes 8
  if sec < 0 ∨ nsec < 0 then some 0
  else (addDuration 0 (1000000000 * sec.toNat)).bind fun time => addDuration time nsec.toNat

def Handler.timeout (checks : Bool) (bytes : List UInt8) : Handler → Timeout
  | .futexWait => futexTimeout checks bytes
  | .nanosleep | .clockNanosleep => sleepTimeout checks bytes
  | .clockNanosleepUntil c startedAt clockid => untilTimeout checks (computeTime c startedAt clockid) bytes
  | .ppoll c => ppollTimeout checks (pollDeadline c) bytes
  | .epollPwait => ppollTimeout checks epollTimeout bytes
  | .select c => selectTimeout checks c bytes
  | .utimensat => .ofPanic (timespecFromBytes bytes)

-- ---------------------------------------------------------------------------
-- The calls themselves
-- ---------------------------------------------------------------------------

theorem decodeTimespec_eq (h : guestSlice memory ptr 16 = .ok bytes) :
    decodeTimespec memory ptr =
      match futexTimeout false bytes with
      | .lasts d => .ok (UInt64.ofNat d)
      | _ => .error (-EINVAL) := by
  have hs : guestSlice memory ptr Futex.TIMESPEC_SIZE = .ok bytes := h
  simp only [decodeTimespec, hs, futexTimeout]
  by_cases hrefused : ¬ (0 ≤ i64At bytes 8 ∧ i64At bytes 8 < 1000000000) ∨ i64At bytes 0 < 0
  · rw [if_pos hrefused]
    exact if_pos hrefused
  · rw [if_neg hrefused]
    refine (if_neg hrefused).trans ?_
    rw [fromNanos, unsigned_unchecked, Timeout.ofPanic, saturating, Nat.mul_comm]
    exact congrArg Except.ok UInt64.ofNat_mod_size.symm

theorem nanosleep_eq (checks : Bool) (rem : Int) (h : guestSlice memory req 16 = .ok bytes) :
    nanosleep checks memory req rem =
      match sleepTimeout checks bytes with
      | .panics => .panics
      | .lasts d => .returns (writeRem memory rem).1 (some d) (writeRem memory rem).2
      | _ => .returns (-EINVAL) none memory := by
  have hs : guestSlice memory req TIMESPEC_SIZE = .ok bytes := h
  simp only [nanosleep, hs, sleepTimeout]
  by_cases hrefused : refusedTimespec (i64At bytes 0) (i64At bytes 8)
  · rw [if_pos hrefused, if_pos hrefused]
  · rw [if_neg hrefused, if_neg hrefused]
    unfold sleepRelative
    cases fromNanos checks (i64At bytes 0) (i64At bytes 8) with
    | none => rfl
    | some dur => rfl

theorem clockNanosleep_relative (checks : Bool) (rem : Int) (hclock : clockid = CLOCK_REALTIME ∨ sinceStart clockid)
    (hflags : BitVec.ofInt 32 flags &&& TIMER_ABSTIME = 0) :
    clockNanosleep checks memory c startedAt clockid flags req rem = nanosleep checks memory req rem := by
  unfold clockNanosleep nanosleep
  rw [if_neg (not_not_intro hclock)]
  cases guestSlice memory req TIMESPEC_SIZE with
  | error e => rfl
  | ok bytes => simp only [hflags, ne_eq, not_true_eq_false, if_false]

theorem clockNanosleep_until (checks : Bool) (rem : Int) (hclock : clockid = CLOCK_REALTIME ∨ sinceStart clockid)
    (hflags : BitVec.ofInt 32 flags &&& TIMER_ABSTIME ≠ 0) (h : guestSlice memory req 16 = .ok bytes)
    (hsleep : clockNanosleep checks memory c startedAt clockid flags req rem = .returns 0 slept memory') :
    untilTimeout checks (computeTime c startedAt clockid) bytes = .lasts (slept.getD 0) := by
  have hs : guestSlice memory req TIMESPEC_SIZE = .ok bytes := h
  rw [clockNanosleep, if_neg (not_not_intro hclock), hs] at hsleep
  dsimp only at hsleep
  unfold untilTimeout
  by_cases hrefused : refusedTimespec (i64At bytes 0) (i64At bytes 8)
  · rw [if_pos hrefused] at hsleep
    cases hsleep
  · rw [if_neg hrefused, if_pos hflags] at hsleep
    rw [if_neg hrefused]
    cases hcur : computeTime c startedAt clockid with
    | none =>
      rw [hcur] at hsleep
      cases hsleep
    | some cur =>
      rw [hcur] at hsleep
      dsimp only at hsleep ⊢
      cases huntil : untilNanos checks cur (i64At bytes 0, i64At bytes 8) with
      | none =>
        rw [huntil] at hsleep
        cases hsleep
      | some left =>
        rw [huntil] at hsleep
        cases hsleep
        rfl

theorem timespecMs_eq (bytes : List UInt8) :
    timespecMs bytes =
      if i64At bytes 0 < 0 ∨ i64At bytes 8 < 0 ∨ ¬ (0 ≤ i64At bytes 8 ∧ i64At bytes 8 < 1000000000) then none
      else timespecMillis false (i64At bytes 0) (i64At bytes 8) := by
  simp only [timespecMs, timespecMillis, signed_unchecked, i64At, List.drop_zero]
  refine if_congr ?_ rfl rfl
  omega

theorem timevalMs_eq (bytes : List UInt8) :
    timevalMs bytes =
      if i64At bytes 0 < 0 ∨ i64At bytes 8 < 0 then none
      else timevalMillis false (i64At bytes 0) (i64At bytes 8) := by
  simp only [timevalMs, timevalMillis, signed_unchecked, i64At, List.drop_zero, Option.bind_eq_bind,
    Option.bind_some, Int.bmod_add_bmod]

-- ---------------------------------------------------------------------------
-- What was asked for
-- ---------------------------------------------------------------------------

namespace Handler

/-- The times a call accepts. -/
def Accepts (bytes : List UInt8) : Handler → Prop
  | .select _ | .utimensat => 0 ≤ i64At bytes 0 ∧ 0 ≤ i64At bytes 8
  | .clockNanosleepUntil c startedAt clockid =>
    0 ≤ i64At bytes 0 ∧ 0 ≤ i64At bytes 8 ∧ i64At bytes 8 < 1000000000 ∧
      (computeTime c startedAt clockid).isSome
  | _ => 0 ≤ i64At bytes 0 ∧ 0 ≤ i64At bytes 8 ∧ i64At bytes 8 < 1000000000

def requested (bytes : List UInt8) : Handler → Nat
  | .select _ => 1000000 * (i64At bytes 0).toNat + (i64At bytes 8).toNat
  | _ => 1000000000 * (i64At bytes 0).toNat + (i64At bytes 8).toNat

/-- The exact time in the call's unit, rounded down. -/
def exact (bytes : List UInt8) (h : Handler) : Nat :=
  match h with
  | .clockNanosleepUntil c startedAt clockid =>
    let cur := (computeTime c startedAt clockid).getD (0, 0)
    (h.requested bytes - (cur.1 * 1000000000 + cur.2)).toNat
  | .ppoll _ | .epollPwait => h.requested bytes / 1000000
  | .select _ => h.requested bytes / 1000
  | _ => h.requested bytes

/-- The largest time in the call's unit. -/
def limit : Handler → Nat
  | .ppoll _ | .epollPwait | .select _ => 2 ^ 63 - 1
  | .utimensat => 2 ^ 63 * 1000000000 - 1
  | _ => 2 ^ 64 - 1

/-- Nothing overflows in the call's arithmetic. -/
def Contained (bytes : List UInt8) (h : Handler) : Prop :=
  match h with
  | .futexWait | .nanosleep | .clockNanosleep => h.exact bytes ≤ h.limit ∨ i64At bytes 8 = 0
  | .clockNanosleepUntil c startedAt clockid =>
    -- The difference may also happen to be cut to the largest time.
    (∀ cur ∈ computeTime c startedAt clockid, 0 ≤ cur.1) ∧
      (h.exact bytes ≤ h.limit ∨ h.exact bytes % 2 ^ 64 = h.limit)
  | .ppoll c => (h.exact bytes ≤ h.limit ∨ i64At bytes 8 < 1000000) ∧
      c.instant + 1000000 * min (h.exact bytes) h.limit < 2 ^ 63 * 1000000000
  | .epollPwait => h.exact bytes ≤ h.limit ∨ i64At bytes 8 < 1000000
  | .select c => h.exact bytes ≤ h.limit ∧ c.instant + 1000000 * h.exact bytes < 2 ^ 63 * 1000000000
  | .utimensat => h.exact bytes ≤ h.limit

/-- In either build the call waits for the exact time, or for the longest there is. -/
def Waits (bytes : List UInt8) (h : Handler) : Prop :=
  ∀ checks, h.timeout checks bytes = .lasts (min (h.exact bytes) h.limit)

end Handler

-- ---------------------------------------------------------------------------
-- When nothing overflows
-- ---------------------------------------------------------------------------

variable {bytes bytes' : List UInt8}

theorem ofPanic_eq_lasts : Timeout.ofPanic o = .lasts n ↔ o = some n := by
  cases o with
  | none => simp [Timeout.ofPanic]
  | some m => simp [Timeout.ofPanic]

theorem fromNanos_iff (hnsec : 0 ≤ nsec) :
    (∀ checks, fromNanos checks sec nsec =
        some (min (1000000000 * sec.toNat + nsec.toNat) (2 ^ 64 - 1))) ↔
      1000000000 * sec.toNat + nsec.toNat ≤ 2 ^ 64 - 1 ∨ nsec = 0 := by
  simp only [fromNanos, unsigned_iff, saturating]
  omega

theorem futexWait_iff (ha : Handler.futexWait.Accepts bytes) :
    Handler.futexWait.Waits bytes ↔ Handler.futexWait.Contained bytes := by
  obtain ⟨hsec, hnsec, hlt⟩ := ha
  have htimeout (checks : Bool) : Handler.futexWait.timeout checks bytes =
      .ofPanic (fromNanos checks (i64At bytes 0) (i64At bytes 8)) := if_neg (by omega)
  simp only [Handler.Waits, htimeout, ofPanic_eq_lasts]
  exact fromNanos_iff hnsec

theorem sleepTimeout_accepted (checks : Bool) (hsec : 0 ≤ i64At bytes 0) (hnsec : 0 ≤ i64At bytes 8)
    (hlt : i64At bytes 8 < 1000000000) :
    sleepTimeout checks bytes = .ofPanic (fromNanos checks (i64At bytes 0) (i64At bytes 8)) :=
  if_neg (by unfold refusedTimespec; omega)

theorem nanosleep_iff (ha : Handler.nanosleep.Accepts bytes) :
    Handler.nanosleep.Waits bytes ↔ Handler.nanosleep.Contained bytes := by
  obtain ⟨hsec, hnsec, hlt⟩ := ha
  simp only [Handler.Waits, Handler.timeout, sleepTimeout_accepted _ hsec hnsec hlt, ofPanic_eq_lasts]
  exact fromNanos_iff hnsec

theorem timespecMillis_iff (hsec : 0 ≤ sec) (hnsec : 0 ≤ nsec) :
    (∀ checks, timespecMillis checks sec nsec =
        some ((min ((1000000000 * sec.toNat + nsec.toNat) / 1000000) (2 ^ 63 - 1) : Nat) : Int)) ↔
      (1000000000 * sec.toNat + nsec.toNat) / 1000000 ≤ 2 ^ 63 - 1 ∨ nsec < 1000000 := by
  obtain ⟨s, rfl⟩ := Int.eq_ofNat_of_zero_le hsec
  obtain ⟨n, rfl⟩ := Int.eq_ofNat_of_zero_le hnsec
  have hmillis : (1000000000 * s + n) / 1000000 = 1000 * s + n / 1000000 := by omega
  have hpart : ((n : Int) / 1000000) = ((n / 1000000 : Nat) : Int) := rfl
  have hless : (n : Int) < 1000000 ↔ n / 1000000 = 0 := by omega
  simp only [timespecMillis, signed_iff, Int.toNat_natCast, hmillis, hpart, hless]
  generalize n / 1000000 = m
  omega

theorem timevalMillis_iff (hsec : 0 ≤ sec) (husec : 0 ≤ usec) :
    (∀ checks, timevalMillis checks sec usec =
        some ((min ((1000000 * sec.toNat + usec.toNat) / 1000) (2 ^ 63 - 1) : Nat) : Int)) ↔
      (1000000 * sec.toNat + usec.toNat) / 1000 ≤ 2 ^ 63 - 1 := by
  constructor
  · intro h
    have hchecked := h true
    by_contra hlarge
    unfold timevalMillis at hchecked
    by_cases hproduct : -2 ^ (64 - 1) ≤ sec * 1000 ∧ sec * 1000 < 2 ^ (64 - 1)
    · rw [signed_of_fits true hproduct, Option.bind_eq_bind, Option.bind_some, signed_checked (by omega)]
        at hchecked
      cases hchecked
    · rw [signed_checked hproduct] at hchecked
      cases hchecked
  · intro h checks
    rw [timevalMillis, signed_of_fits checks (by omega), Option.bind_eq_bind, Option.bind_some,
      signed_of_fits checks (by omega)]
    exact congrArg some (by omega)

theorem epollTimeout_eq_lasts {ms : Int} : epollTimeout ms = .lasts n ↔ ms = n := by
  unfold epollTimeout
  split
  · simp only [Timeout.lasts.injEq]
    omega
  · simp only [reduceCtorEq, false_iff]
    omega

theorem pollDeadline_eq_lasts {c : HostClock} {ms : Int} :
    pollDeadline c ms = .lasts n ↔ ms = n ∧ c.instant + 1000000 * n < 2 ^ 63 * 1000000000 := by
  have hseconds := c.seconds
  unfold pollDeadline
  split
  · simp only [Timeout.lasts.injEq]
    omega
  · split
    · split
      · simp only [Timeout.lasts.injEq]
        omega
      · simp only [reduceCtorEq, false_iff]
        omega
    · simp only [reduceCtorEq, false_iff]
      omega

/-- A deadline is only taken of what did not panic. -/
theorem panics_or_lasts {deadline : Int → Timeout} {o : Option Int} :
    (match o with
      | none => Timeout.panics
      | some ms => deadline ms) = .lasts n ↔ ∃ ms, o = some ms ∧ deadline ms = .lasts n := by
  cases o with
  | none => simp
  | some ms => simp

theorem millis_deadline {c : HostClock} {o : Option Int} :
    (∃ ms, o = some ms ∧ pollDeadline c ms = .lasts n) ↔
      o = some (n : Int) ∧ c.instant + 1000000 * n < 2 ^ 63 * 1000000000 := by
  simp only [pollDeadline_eq_lasts]
  constructor
  · rintro ⟨ms, rfl, rfl, hfits⟩
    exact ⟨rfl, hfits⟩
  · rintro ⟨rfl, hfits⟩
    exact ⟨n, rfl, rfl, hfits⟩

theorem ppollTimeout_accepted (checks : Bool) (deadline : Int → Timeout) (hsec : 0 ≤ i64At bytes 0)
    (hnsec : 0 ≤ i64At bytes 8) (hlt : i64At bytes 8 < 1000000000) :
    ppollTimeout checks deadline bytes = .lasts n ↔
      ∃ ms, timespecMillis checks (i64At bytes 0) (i64At bytes 8) = some ms ∧ deadline ms = .lasts n := by
  unfold ppollTimeout
  rw [if_neg (by omega)]
  exact panics_or_lasts

theorem epollPwait_iff (ha : Handler.epollPwait.Accepts bytes) :
    Handler.epollPwait.Waits bytes ↔ Handler.epollPwait.Contained bytes := by
  obtain ⟨hsec, hnsec, hlt⟩ := ha
  simp only [Handler.Waits, Handler.timeout, ppollTimeout_accepted _ _ hsec hnsec hlt, epollTimeout_eq_lasts,
    exists_eq_right]
  exact timespecMillis_iff hsec hnsec

theorem ppoll_iff {c : HostClock} (ha : (Handler.ppoll c).Accepts bytes) :
    (Handler.ppoll c).Waits bytes ↔ (Handler.ppoll c).Contained bytes := by
  obtain ⟨hsec, hnsec, hlt⟩ := ha
  simp only [Handler.Waits, Handler.timeout, ppollTimeout_accepted _ _ hsec hnsec hlt, millis_deadline,
    forall_and, forall_const]
  exact and_congr_left' (timespecMillis_iff hsec hnsec)

theorem select_iff {c : HostClock} (ha : (Handler.select c).Accepts bytes) :
    (Handler.select c).Waits bytes ↔ (Handler.select c).Contained bytes := by
  obtain ⟨hsec, husec⟩ := ha
  have htimeout (checks : Bool) (n : Nat) : (Handler.select c).timeout checks bytes = .lasts n ↔
      timevalMillis checks (i64At bytes 0) (i64At bytes 8) = some (n : Int) ∧
        c.instant + 1000000 * n < 2 ^ 63 * 1000000000 := by
    simp only [Handler.timeout, selectTimeout]
    rw [if_neg (by omega), panics_or_lasts, millis_deadline]
  simp only [Handler.Waits, htimeout, forall_and, forall_const]
  refine (and_congr_left' (timevalMillis_iff hsec husec)).trans (and_congr_right fun hfits => ?_)
  have hmin : min ((Handler.select c).exact bytes) (Handler.select c).limit = (Handler.select c).exact bytes :=
    Nat.min_eq_left hfits
  rw [hmin]

theorem utimensat_iff (ha : Handler.utimensat.Accepts bytes) :
    Handler.utimensat.Waits bytes ↔ Handler.utimensat.Contained bytes := by
  obtain ⟨hsec, hnsec⟩ := ha
  have hstamp : timespecFromBytes bytes =
      addDuration (1000000000 * (i64At bytes 0).toNat) (i64At bytes 8).toNat := by
    have hlt := (i64At_bounds bytes 0).2
    rw [timespecFromBytes, if_neg (by omega), addDuration, if_pos (by omega), Nat.zero_add, Option.bind_some]
  have hwaits : Handler.utimensat.Waits bytes ↔
      addDuration (1000000000 * (i64At bytes 0).toNat) (i64At bytes 8).toNat =
        some (min (1000000000 * (i64At bytes 0).toNat + (i64At bytes 8).toNat) (2 ^ 63 * 1000000000 - 1)) := by
    simp only [Handler.Waits, Handler.timeout, ofPanic_eq_lasts, hstamp, forall_const]
    rfl
  rw [hwaits, addDuration]
  change _ ↔ 1000000000 * (i64At bytes 0).toNat + (i64At bytes 8).toNat ≤ 2 ^ 63 * 1000000000 - 1
  split
  · simp only [Option.some.injEq]
    omega
  · simp only [reduceCtorEq, false_iff]
    omega

theorem totalNs_of_nonneg (checks : Bool) (hsec : 0 ≤ sec ∧ sec < 2 ^ 63) (hnsec : 0 ≤ nsec ∧ nsec < 2 ^ 63) :
    totalNs checks sec nsec = some (1000000000 * sec.toNat + nsec.toNat) := by
  have hsecNat : asU128 sec = sec.toNat := by
    unfold asU128
    omega
  have hnsecNat : asU128 nsec = nsec.toNat := by
    unfold asU128
    omega
  rw [totalNs, hsecNat, hnsecNat, unsigned_of_lt checks (by omega), Option.bind_eq_bind, Option.bind_some,
    unsigned_of_lt checks (by omega)]

/-- Seconds before the epoch are a large number without a sign. -/
theorem totalNs_of_neg (hsec : -2 ^ 63 ≤ sec ∧ sec < 0) : totalNs true sec nsec = none := by
  have hlarge : 2 ^ 127 ≤ asU128 sec := by
    unfold asU128
    omega
  rw [totalNs, unsigned_checked (by omega), Option.bind_eq_bind, Option.bind_none]

theorem untilNanos_eq (checks : Bool) (hcur : totalNs checks cs cn = some curNs)
    (hreq : totalNs checks rs rn = some reqNs) :
    untilNanos checks (cs, cn) (rs, rn) =
      some (if reqNs ≤ curNs then none else some ((reqNs - curNs) % 2 ^ 64)) := by
  simp only [untilNanos, hcur, hreq, Option.bind_eq_bind, Option.bind_some]
  split
  · rfl
  · rfl

theorem computeTime_bounds (h : computeTime c startedAt clockid = some cur) :
    (-2 ^ 63 ≤ cur.1 ∧ cur.1 < 2 ^ 63) ∧ 0 ≤ cur.2 ∧ cur.2 < 1000000000 := by
  unfold computeTime at h
  split at h
  · obtain rfl := Option.some.inj h
    have hmicros := c.micros
    dsimp only
    omega
  · split at h
    · obtain rfl := Option.some.inj h
      have hseconds := c.seconds
      have helapsed : c.elapsed startedAt ≤ c.instant := Nat.sub_le ..
      dsimp only
      rw [Int.bmod_eq_of_le (by omega) (by omega)]
      omega
    · cases h

theorem clockNanosleepUntil_iff {c : HostClock}
    (ha : (Handler.clockNanosleepUntil c startedAt clockid).Accepts bytes) :
    (Handler.clockNanosleepUntil c startedAt clockid).Waits bytes ↔
      (Handler.clockNanosleepUntil c startedAt clockid).Contained bytes := by
  obtain ⟨hsec, hnsec, hlt, hknown⟩ := ha
  obtain ⟨⟨cs, cn⟩, hcur⟩ := Option.isSome_iff_exists.mp hknown
  obtain ⟨hcurSec, hcurNsec⟩ := computeTime_bounds hcur
  dsimp only at hcurSec hcurNsec
  have hbound := (i64At_bounds bytes 0).2
  have haccepted : ¬ refusedTimespec (i64At bytes 0) (i64At bytes 8) := by
    unfold refusedTimespec
    omega
  have hexact : (Handler.clockNanosleepUntil c startedAt clockid).exact bytes =
      ((1000000000 * (i64At bytes 0).toNat + (i64At bytes 8).toNat : Nat) - (cs * 1000000000 + cn)).toNat := by
    simp only [Handler.exact, hcur, Option.getD_some, Handler.requested]
  rcases Int.lt_or_le cs 0 with hneg | hnonneg
  · -- The current time itself is too large: a build with checks panics.
    refine iff_of_false (fun hwaits => ?_) fun hcontained => ?_
    · have hpanics := hwaits true
      simp only [Handler.timeout, untilTimeout, if_neg haccepted, hcur, untilNanos,
        totalNs_of_neg ⟨hcurSec.1, hneg⟩, Option.bind_eq_bind, Option.bind_none] at hpanics
      cases hpanics
    · exact Int.not_lt.mpr (hcontained.1 _ hcur) hneg
  · have hcontained : (Handler.clockNanosleepUntil c startedAt clockid).Contained bytes ↔
        (Handler.clockNanosleepUntil c startedAt clockid).exact bytes ≤ 2 ^ 64 - 1 ∨
          (Handler.clockNanosleepUntil c startedAt clockid).exact bytes % 2 ^ 64 = 2 ^ 64 - 1 := by
      refine and_iff_right fun cur' hcur' => ?_
      obtain rfl := Option.some.inj (hcur.symm.trans hcur')
      exact hnonneg
    have htimeout (checks : Bool) : (Handler.clockNanosleepUntil c startedAt clockid).timeout checks bytes =
        .lasts ((Handler.clockNanosleepUntil c startedAt clockid).exact bytes % 2 ^ 64) := by
      have hcurNs := totalNs_of_nonneg checks ⟨hnonneg, hcurSec.2⟩ ⟨hcurNsec.1, (by omega : cn < 2 ^ 63)⟩
      have hreqNs := totalNs_of_nonneg checks ⟨hsec, hbound⟩ ⟨hnsec, (by omega : i64At bytes 8 < 2 ^ 63)⟩
      simp only [Handler.timeout, untilTimeout, if_neg haccepted, hcur, untilNanos_eq checks hcurNs hreqNs, hexact]
      refine congrArg Timeout.lasts ?_
      split
      · rw [Option.getD_none]
        omega
      · rw [Option.getD_some]
        congr 1
        omega
    rw [hcontained]
    simp only [Handler.Waits, htimeout, Timeout.lasts.injEq, forall_const, Handler.limit]
    generalize (Handler.clockNanosleepUntil c startedAt clockid).exact bytes = amount
    omega

/-- Every call waits for the exact time or the longest there is exactly when its
arithmetic does not overflow. -/
theorem waits_iff {h : Handler} (ha : h.Accepts bytes) : h.Waits bytes ↔ h.Contained bytes := by
  cases h with
  | futexWait => exact futexWait_iff ha
  | nanosleep => exact nanosleep_iff ha
  | clockNanosleep => exact nanosleep_iff ha
  | clockNanosleepUntil c startedAt clockid => exact clockNanosleepUntil_iff ha
  | ppoll c => exact ppoll_iff ha
  | epollPwait => exact epollPwait_iff ha
  | select c => exact select_iff ha
  | utimensat => exact utimensat_iff ha

-- ---------------------------------------------------------------------------
-- Two requests
-- ---------------------------------------------------------------------------

/-- Both requests are waited for exactly or for the longest time there is, and the longer
one no shorter. -/
structure NeverWraps (h : Handler) (bytes bytes' : List UInt8) : Prop where
  first : h.Waits bytes
  second : h.Waits bytes'
  monotone : ∀ checks t t', h.timeout checks bytes = .lasts t → h.timeout checks bytes' = .lasts t' →
    h.requested bytes ≤ h.requested bytes' → t ≤ t'

theorem exact_mono {h : Handler} (hle : h.requested bytes ≤ h.requested bytes') :
    h.exact bytes ≤ h.exact bytes' := by
  cases h with
  | futexWait => exact hle
  | nanosleep => exact hle
  | clockNanosleep => exact hle
  | clockNanosleepUntil c startedAt clockid =>
    simp only [Handler.exact]
    apply Int.toNat_le_toNat
    omega
  | ppoll c => exact Nat.div_le_div_right hle
  | epollPwait => exact Nat.div_le_div_right hle
  | select c => exact Nat.div_le_div_right hle
  | utimensat => exact hle

theorem timeouts_never_wrap_iff {h : Handler} (ha : h.Accepts bytes) (ha' : h.Accepts bytes') :
    NeverWraps h bytes bytes' ↔ h.Contained bytes ∧ h.Contained bytes' := by
  rw [← waits_iff ha, ← waits_iff ha']
  refine ⟨fun hnever => ⟨hnever.first, hnever.second⟩, fun ⟨hfirst, hsecond⟩ => ⟨hfirst, hsecond, ?_⟩⟩
  intro checks t t' ht ht' hle
  rw [hfirst checks] at ht
  rw [hsecond checks] at ht'
  cases ht
  cases ht'
  have hexact := exact_mono hle
  omega

theorem accepts_pair (sec nsec : Int) (hsec : 0 ≤ sec ∧ sec < 2 ^ 63) (hnsec : 0 ≤ nsec ∧ nsec < 1000000000)
    (c : HostClock) :
    Handler.futexWait.Accepts (pairBytes sec nsec) ∧ (Handler.ppoll c).Accepts (pairBytes sec nsec) := by
  have hsec' := i64At_pairBytes_sec sec nsec ⟨by omega, hsec.2⟩
  have hnsec' := i64At_pairBytes_frac sec nsec ⟨by omega, by omega⟩
  simp only [Handler.Accepts, hsec', hnsec']
  omega

/-- Waits of one and of two seconds. -/
theorem timeouts_never_wrap_seconds : Handler.futexWait.Accepts (pairBytes 1 0) ∧
    Handler.futexWait.Accepts (pairBytes 2 0) ∧ NeverWraps .futexWait (pairBytes 1 0) (pairBytes 2 0) := by
  have hone := (accepts_pair 1 0 (by decide) (by decide) beforeSecond).1
  have htwo := (accepts_pair 2 0 (by decide) (by decide) beforeSecond).1
  refine ⟨hone, htwo, (timeouts_never_wrap_iff hone htwo).mpr ⟨.inr ?_, .inr ?_⟩⟩
  · exact i64At_pairBytes_frac 1 0 (by decide)
  · exact i64At_pairBytes_frac 2 0 (by decide)

/-- A `ppoll` of 292 million years and a millisecond waits forever, or panics. -/
theorem ppoll_waits_forever : (Handler.ppoll beforeSecond).Accepts (pairBytes 9223372036854776 1000000) ∧
    (Handler.ppoll beforeSecond).timeout false (pairBytes 9223372036854776 1000000) = .forever ∧
    (Handler.ppoll beforeSecond).timeout true (pairBytes 9223372036854776 1000000) = .panics ∧
    ¬ NeverWraps (.ppoll beforeSecond) (pairBytes 9223372036854776 1000000)
      (pairBytes 9223372036854776 1000000) := by
  have haccepts := (accepts_pair 9223372036854776 1000000 (by decide) (by decide) beforeSecond).2
  have hsec := i64At_pairBytes_sec 9223372036854776 1000000 (by decide)
  have hnsec := i64At_pairBytes_frac 9223372036854776 1000000 (by decide)
  have htimeout (checks : Bool) :
      (Handler.ppoll beforeSecond).timeout checks (pairBytes 9223372036854776 1000000) =
        match timespecMillis checks 9223372036854776 1000000 with
        | none => .panics
        | some ms => pollDeadline beforeSecond ms := by
    simp only [Handler.timeout, ppollTimeout, hsec, hnsec]
    exact if_neg (by decide)
  have hforever : (Handler.ppoll beforeSecond).timeout false (pairBytes 9223372036854776 1000000) = .forever := by
    rw [htimeout]
    decide
  refine ⟨haccepts, hforever, ?_, fun hnever => ?_⟩
  · rw [htimeout]
    decide
  · cases hforever.symm.trans (hnever.first false)

end EdgeLibos.Sys.Timeouts
