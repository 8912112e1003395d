import EdgeLibos.Cli.Trace
import EdgeLibos.Lib.JsonText

/-!
# The lines of the tracer

`trace` has an observer told of every system call before and after its handler, which
pairs the two in one slot. A call is one line of JSON on the standard output, with the
name its number has.
-/

namespace EdgeLibos.Cli

open Lib

/-- The arms of `syscall_name`, for the numbers that `dispatch` has handlers for. -/
def SYSCALLS : List (UInt32 × String) :=
  [(60, "exit"), (231, "exit_group"), (39, "getpid"), (186, "gettid"), (218, "set_tid_address"),
    (273, "set_robust_list"), (158, "arch_prctl"), (334, "rseq"), (9, "mmap"), (11, "munmap"),
    (10, "mprotect"), (28, "madvise"), (12, "brk"), (0, "read"), (1, "write"), (2, "open"),
    (257, "openat"), (3, "close"), (4, "stat"), (6, "lstat"), (8, "lseek"), (5, "fstat"),
    (262, "newfstatat"), (332, "statx"), (217, "getdents64"), (22, "pipe"), (293, "pipe2"),
    (72, "fcntl"), (32, "dup"), (33, "dup2"), (292, "dup3"), (79, "getcwd"), (19, "readv"),
    (20, "writev"), (83, "mkdir"), (258, "mkdirat"), (84, "rmdir"), (87, "unlink"), (263, "unlinkat"),
    (82, "rename"), (264, "renameat"), (316, "renameat2"), (76, "truncate"), (77, "ftruncate"),
    (89, "readlink"), (267, "readlinkat"), (88, "symlink"), (266, "symlinkat"), (86, "link"),
    (265, "linkat"), (280, "utimensat"), (90, "chmod"), (91, "fchmod"), (268, "fchmodat"),
    (269, "faccessat"), (439, "faccessat2"), (80, "chdir"), (161, "chroot"), (41, "socket"),
    (49, "bind"), (50, "listen"), (43, "accept"), (288, "accept4"), (42, "connect"), (44, "sendto"),
    (45, "recvfrom"), (46, "sendmsg"), (47, "recvmsg"), (54, "setsockopt"), (55, "getsockopt"),
    (51, "getsockname"), (52, "getpeername"), (48, "shutdown"), (53, "socketpair"), (7, "poll"),
    (271, "ppoll"), (23, "select"), (291, "epoll_create1"), (233, "epoll_ctl"), (232, "epoll_wait"),
    (281, "epoll_pwait"), (290, "eventfd2"), (284, "eventfd"), (102, "getuid"), (107, "geteuid"),
    (104, "getgid"), (108, "getegid"), (110, "getppid"), (63, "uname"), (302, "prlimit64"),
    (97, "getrlimit"), (112, "setsid"), (124, "getsid"), (115, "getgroups"), (24, "sched_yield"),
    (204, "sched_getaffinity"), (157, "prctl"), (62, "kill"), (234, "tgkill"), (131, "sigaltstack"),
    (15, "rt_sigreturn"), (229, "clock_getres"), (230, "clock_nanosleep"), (25, "mremap"),
    (16, "ioctl"), (228, "clock_gettime"), (96, "gettimeofday"), (35, "nanosleep"), (99, "sysinfo"),
    (100, "times"), (56, "clone"), (57, "fork"), (61, "wait4"), (202, "futex"), (123, "snapshot"),
    (400, "resolve"), (318, "getrandom"), (13, "rt_sigaction"), (14, "rt_sigprocmask")]

def syscallName (nr : UInt32) : String := (SYSCALLS.lookup nr).getD "?"

abbrev Args := Vector Int64 6

structure TraceEntry where
  tsNs : Nat
  nr : UInt32
  name : String
  args : Args
  ret : Int64
  deriving DecidableEq, Repr

variable {e : TraceEntry} {entries : List TraceEntry}

-- ---------------------------------------------------------------------------
-- The observer
-- ---------------------------------------------------------------------------

structure Observed where
  pending : Option (Nat × UInt32 × Args)
  trace : List TraceEntry

def Observed.new : Observed := { pending := none, trace := [] }

def onEnter (tsNs : Nat) (nr : UInt32) (args : Args) (o : Observed) : Observed :=
  { o with pending := some (tsNs, nr, args) }

def onExit (nr : UInt32) (ret : Int64) (o : Observed) : Observed :=
  match o.pending with
  | none => o
  | some (tsNs, pendingNr, args) =>
    { pending := none
      trace := if pendingNr = nr then o.trace ++ [{ tsNs, nr, name := syscallName nr, args, ret }] else o.trace }

inductive Event
  | enter (tsNs : Nat) (nr : UInt32) (args : Args)
  | exit (nr : UInt32) (ret : Int64)

def observe (o : Observed) : Event → Observed
  | .enter tsNs nr args => onEnter tsNs nr args o
  | .exit nr ret => onExit nr ret o

/-- The entry of an exit that comes right after the entering of the same call. -/
def entryOf : Event × Event → Option TraceEntry
  | (.enter tsNs nr args, .exit nr' ret) =>
    if nr = nr' then some { tsNs, nr := nr', name := syscallName nr', args, ret } else none
  | _ => none

def adjacent (events : List Event) : List (Event × Event) := events.zip events.tail

-- ---------------------------------------------------------------------------
-- What is printed
-- ---------------------------------------------------------------------------

open Json (integer)

def entryLine (e : TraceEntry) : List Char :=
  "\x7b\"ts_ns\":".toList ++ integer e.tsNs ++ ",\"nr\":".toList ++ integer e.nr.toNat ++
    ",\"name\":\"".toList ++ e.name.toList ++ "\",\"args\":[".toList ++
    Json.commas (e.args.toList.map fun a => integer a.toInt) ++ "],\"ret\":".toList ++ integer e.ret.toInt ++
    "\x7d".toList

def stdout (entries : List TraceEntry) (marker : List Char) (emitMarker : Bool) : List Char :=
  entries.flatMap (fun e => entryLine e ++ ['\n']) ++ if emitMarker then markerLine marker ++ ['\n'] else []

-- ---------------------------------------------------------------------------
-- Reading a line
-- ---------------------------------------------------------------------------

def number : Json.Value → Option Int
  | .number text => some (Json.ofInteger text)
  | _ => none

theorem size_toArray {args : List Int64} (h : args.length = 6) : args.toArray.size = 6 := h

def argsOf (args : List Int64) : Option Args :=
  if h : args.length = 6 then some ⟨args.toArray, size_toArray h⟩ else none

/-- The values of the five members, in the order of the line. -/
def entryOfValues : List Json.Value → Option TraceEntry
  | [ts, nr, .string name, .array args, ret] => do
    let ts ← number ts
    let nr ← number nr
    let args ← args.mapM number
    let args ← argsOf (args.map Int64.ofInt)
    let ret ← number ret
    some { tsNs := ts.toNat, nr := UInt32.ofNat nr.toNat, name := String.ofList name, args, ret := Int64.ofInt ret }
  | _ => none

def entryKeys : List (List Char) :=
  ["ts_ns".toList, "nr".toList, "name".toList, "args".toList, "ret".toList]

def readEntry (line : List Char) : Option TraceEntry :=
  match Json.parse line with
  | some (.object members) =>
    if members.map Prod.fst = entryKeys then entryOfValues (members.map Prod.snd) else none
  | _ => none

theorem names_plain : SYSCALLS.all (fun p => Json.plain p.2.toList) = true := by decide +kernel

theorem syscallName_plain (nr : UInt32) : Json.plain (syscallName nr).toList := by
  unfold syscallName
  cases h : SYSCALLS.lookup nr with
  | none => decide
  | some name =>
    obtain ⟨before, after, hmem, -⟩ := List.lookup_eq_some_iff.mp h
    refine List.all_eq_true.mp names_plain (nr, name) ?_
    simp [hmem]

def entryTexts (e : TraceEntry) : List (List Char) :=
  [integer e.tsNs, integer e.nr.toNat, Json.quoted e.name.toList,
    Json.array (e.args.toList.map fun a => integer a.toInt), integer e.ret.toInt]

def entryValues (e : TraceEntry) : List Json.Value :=
  [.number (integer e.tsNs), .number (integer e.nr.toNat), .string e.name.toList,
    .array (e.args.toList.map fun a => .number (integer a.toInt)), .number (integer e.ret.toInt)]

theorem entryLine_eq (e : TraceEntry) : entryLine e = Json.object (entryKeys.zip (entryTexts e)) := by
  unfold entryLine entryKeys entryTexts
  simp only [Json.object, Json.member, Json.quoted, Json.array, List.zip_cons_cons, List.zip_nil_left,
    List.map_cons, List.map_nil, Json.commas, String.reduceToList, List.append_assoc, List.cons_append,
    List.nil_append]

theorem reads_args (args : List Int64) :
    List.Forall₂ Json.Reads (args.map fun a => integer a.toInt) (args.map fun a => .number (integer a.toInt)) := by
  induction args with
  | nil => exact .nil
  | cons a args ih => exact .cons (Json.reads_integer a.toInt) ih

theorem reads_entryLine (h : Json.plain e.name.toList) :
    Json.Reads (entryLine e) (.object (entryKeys.zip (entryValues e))) := by
  have hargs : e.args.toList.map (fun a => integer a.toInt) ≠ [] := by
    intro hnil
    have hlen := congrArg List.length hnil
    simp at hlen
  rw [entryLine_eq]
  apply Json.reads_object
  · have hplain : entryKeys.all Json.plain = true := by decide
    simp only [entryKeys, List.all_cons, Bool.and_eq_true] at hplain
    obtain ⟨hts, hnr, hname, hargsKey, hret, -⟩ := hplain
    refine .cons ⟨rfl, hts, Json.reads_integer e.tsNs⟩ ?_
    refine .cons ⟨rfl, hnr, Json.reads_integer e.nr.toNat⟩ ?_
    refine .cons ⟨rfl, hname, Json.reads_quoted h⟩ ?_
    refine .cons ⟨rfl, hargsKey, Json.reads_array (reads_args e.args.toList) hargs⟩ ?_
    exact .cons ⟨rfl, hret, Json.reads_integer e.ret.toInt⟩ .nil
  · simp [entryKeys, entryTexts]

theorem number_integer (i : Int) : number (.number (integer i)) = some i := by
  simp [number, Json.ofInteger_integer]

theorem numbers_args (args : List Int64) :
    (args.map fun a => Json.Value.number (integer a.toInt)).mapM number = some (args.map Int64.toInt) := by
  induction args with
  | nil => rfl
  | cons a args ih => simp only [List.map_cons, List.mapM_cons, number_integer, ih, Option.bind_eq_bind,
      Option.bind_some, Option.pure_def]

theorem ofInt_toInt (args : List Int64) : (args.map Int64.toInt).map Int64.ofInt = args := by
  induction args with
  | nil => rfl
  | cons a args ih => simp [ih]

theorem argsOf_toList (args : Args) : argsOf args.toList = some args := by
  obtain ⟨args, hsize⟩ := args
  simp [argsOf, hsize]

theorem entryOfValues_entryValues (e : TraceEntry) : entryOfValues (entryValues e) = some e := by
  simp only [entryOfValues, entryValues, number_integer, numbers_args, ofInt_toInt, argsOf_toList,
    Option.bind_eq_bind, Option.bind_some]
  simp

theorem readEntry_entryLine (h : Json.plain e.name.toList) : readEntry (entryLine e) = some e := by
  have hlen : entryKeys.length = (entryValues e).length := rfl
  have hkeys := List.map_fst_zip (show entryKeys.length ≤ (entryValues e).length from Nat.le_of_eq hlen)
  have hvalues := List.map_snd_zip (show (entryValues e).length ≤ entryKeys.length from Nat.le_of_eq hlen.symm)
  rw [readEntry, Json.parse_of_reads (reads_entryLine h)]
  simp only [hkeys, hvalues, if_true, entryOfValues_entryValues]

-- ---------------------------------------------------------------------------
-- Reading the output
-- ---------------------------------------------------------------------------

theorem newline_not_plain (h : Json.plain text) : '\n' ∉ text := by
  intro hmem
  have hall := List.all_eq_true.mp h '\n' hmem
  exact absurd hall (by decide)

theorem newline_not_integer (i : Int) : '\n' ∉ integer i := by
  cases i with
  | ofNat n =>
    intro hmem
    have hdigit := Json.isDigit_toDigits hmem
    exact absurd hdigit (by decide)
  | negSucc n =>
    intro hmem
    rcases List.mem_cons.mp hmem with hminus | hmem
    · exact absurd hminus (by decide)
    · have hdigit := Json.isDigit_toDigits hmem
      exact absurd hdigit (by decide)

theorem newline_not_commas (h : ∀ text ∈ texts, '\n' ∉ text) : '\n' ∉ Json.commas texts := by
  induction texts with
  | nil => simp [Json.commas]
  | cons text texts ih =>
    have hrest := ih fun t ht => h t (List.mem_cons_of_mem text ht)
    have htext := h text List.mem_cons_self
    cases texts with
    | nil => exact htext
    | cons next texts => simp [Json.commas, htext, hrest]

theorem newline_not_entryLine (h : Json.plain e.name.toList) : '\n' ∉ entryLine e := by
  have hname := newline_not_plain h
  have hargs : '\n' ∉ Json.commas (e.args.toList.map fun a => integer a.toInt) := by
    apply newline_not_commas
    simp only [List.mem_map]
    rintro text ⟨a, -, rfl⟩
    exact newline_not_integer a.toInt
  have hts := newline_not_integer e.tsNs
  have hnr := newline_not_integer e.nr.toNat
  have hret := newline_not_integer e.ret.toInt
  unfold entryLine
  simp only [String.reduceToList, List.mem_append, not_or]
  simp [hname, hargs, hts, hnr, hret]

/-- The lines of the entries come first, and each is read back. -/
theorem lines_stdout (h : ∀ e ∈ entries, Json.plain e.name.toList) (rest : List Char) :
    (entries.flatMap (fun e => entryLine e ++ ['\n']) ++ rest).splitOn '\n' =
      entries.map entryLine ++ rest.splitOn '\n' := by
  induction entries with
  | nil => rfl
  | cons e entries ih =>
    have hline := newline_not_entryLine (h e List.mem_cons_self)
    have hrest := ih fun e' he => h e' (List.mem_cons_of_mem e he)
    simp only [List.flatMap_cons, List.append_assoc, List.map_cons, List.cons_append, List.nil_append]
    rw [List.splitOn_append_cons_self_of_not_mem hline, hrest]

theorem readEntry_lines (h : ∀ e ∈ entries, Json.plain e.name.toList) :
    (entries.map entryLine).map readEntry = entries.map some := by
  induction entries with
  | nil => rfl
  | cons e entries ih =>
    have hrest := ih fun e' he => h e' (List.mem_cons_of_mem e he)
    simp [readEntry_entryLine (h e List.mem_cons_self), hrest]

-- ---------------------------------------------------------------------------
-- A traced guest
-- ---------------------------------------------------------------------------

/-- An instance under `trace`: what its guest calls next, if it calls at all, what a handler
returns, if it returns, and how the guest goes on with that. -/
structure Instance (κ : Type u) where
  guest : κ → Option (UInt32 × Args × κ)
  dispatch : κ → UInt32 → Args → Option (Int64 × κ)
  resume : κ → Int64 → κ
  now : κ → Nat

abbrev Call := UInt32 × Args × Int64

/-- `kernel.syscall` -/
def syscall (m : Instance κ) (nr : UInt32) (args : Args) (k : κ) (o : Observed) : Option (Int64 × κ) × Observed :=
  let o := onEnter (m.now k) nr args o
  match m.dispatch k nr args with
  | none => (none, o)
  | some (ret, k) => (some (ret, k), onExit nr ret o)

def session (m : Instance κ) : Nat → κ → Observed → List Call × Observed
  | 0, _, o => ([], o)
  | n + 1, k, o =>
    match m.guest k with
    | none => ([], o)
    | some (nr, args, k) =>
      match syscall m nr args k o with
      | (none, o) => ([], o)
      | (some (ret, k), o) =>
        let (calls, o) := session m n (m.resume k ret) o
        ((nr, args, ret) :: calls, o)

def TraceEntry.call (e : TraceEntry) : Call := (e.nr, e.args, e.ret)

variable {m : Instance κ}

theorem syscall_returned (h : syscall m nr args k o = (some (ret, k'), o')) :
    o'.trace = o.trace ++ [{ tsNs := m.now k, nr, name := syscallName nr, args, ret }] := by
  unfold syscall at h
  split at h
  · cases h
  · cases h
    simp [onEnter, onExit]

theorem syscall_stuck (h : syscall m nr args k o = (none, o')) : o'.trace = o.trace := by
  unfold syscall at h
  split at h
  · cases h
    rfl
  · cases h

/-- The trace grows by an entry for each call that returned. -/
theorem session_trace (m : Instance κ) (n : Nat) (k : κ) (o : Observed) :
    ∃ entries, (session m n k o).2.trace = o.trace ++ entries ∧
      entries.map TraceEntry.call = (session m n k o).1 ∧ ∀ e ∈ entries, e.name = syscallName e.nr := by
  induction n generalizing k o with
  | zero => exact ⟨[], by simp [session], rfl, by simp⟩
  | succ n ih =>
    rw [session.eq_def]
    dsimp only
    split
    · exact ⟨[], by simp, rfl, by simp⟩
    · rename_i nr args k _
      split
      · rename_i o' hcall
        exact ⟨[], by simp [syscall_stuck hcall], rfl, by simp⟩
      · rename_i ret k' o' hcall
        obtain ⟨entries, htrace, hcalls, hnames⟩ := ih (m.resume k' ret) o'
        refine ⟨{ tsNs := m.now k, nr, name := syscallName nr, args, ret } :: entries, ?_, ?_, ?_⟩
        · simp [htrace, syscall_returned hcall]
        · simp [hcalls, TraceEntry.call]
        · simp only [List.mem_cons]
          rintro e (rfl | he)
          · rfl
          · exact hnames e he

theorem entries_named (h : ∀ e ∈ entries, e.name = syscallName e.nr) :
    entries.map (fun e => (e.call, e.name)) = (entries.map TraceEntry.call).map fun c => (c, syscallName c.1) := by
  rw [List.map_map]
  refine List.map_congr_left fun e he => ?_
  rw [h e he]
  rfl

/-- The lines that `trace` prints for a guest, read back, are the calls the guest has made, in
their order, with their arguments and what they returned, each with the name of its number. Only
the marker follows them. -/
theorem trace_shows_calls (m : Instance κ) (n : Nat) (k : κ) (marker : List Char) (emitMarker : Bool) :
    ∃ lines, (stdout (session m n k .new).2.trace marker emitMarker).splitOn '\n' =
        lines ++ (if emitMarker then markerLine marker ++ ['\n'] else []).splitOn '\n' ∧
      lines.map (fun line => (readEntry line).map fun e => (e.call, e.name)) =
        (session m n k .new).1.map fun c => some (c, syscallName c.1) := by
  obtain ⟨entries, htrace, hcalls, hnames⟩ := session_trace m n k .new
  have hplain : ∀ e ∈ entries, Json.plain e.name.toList := by
    intro e he
    rw [hnames e he]
    exact syscallName_plain e.nr
  have hall : (session m n k .new).2.trace = entries := htrace
  refine ⟨entries.map entryLine, ?_, ?_⟩
  · rw [hall]
    exact lines_stdout hplain _
  · let told (e : TraceEntry) := (e.call, e.name)
    calc (entries.map entryLine).map (fun line => (readEntry line).map told)
        = ((entries.map entryLine).map readEntry).map (Option.map told) :=
          (List.map_map (g := Option.map told) (f := readEntry)).symm
      _ = (entries.map some).map (Option.map told) := by rw [readEntry_lines hplain]
      _ = (entries.map told).map some := by rw [List.map_map, List.map_map]; rfl
      _ = ((session m n k .new).1.map fun c => (c, syscallName c.1)).map some := by
        rw [entries_named hnames, hcalls]
      _ = (session m n k .new).1.map fun c => some (c, syscallName c.1) := List.map_map

-- ---------------------------------------------------------------------------
-- Any order of the two hooks
-- ---------------------------------------------------------------------------

theorem entryOf_exit (event : Event) : entryOf (.exit nr ret, event) = none := rfl

theorem entryOf_enter (event : Event) : entryOf (event, .enter tsNs nr args) = none := by
  cases event <;> rfl

theorem adjacent_cons (a b : Event) (events : List Event) :
    adjacent (a :: b :: events) = (a, b) :: adjacent (b :: events) := rfl

theorem adjacent_exit (nr : UInt32) (ret : Int64) (events : List Event) :
    (adjacent (.exit nr ret :: events)).filterMap entryOf = (adjacent events).filterMap entryOf := by
  cases events with
  | nil => rfl
  | cons event events => rw [adjacent_cons, List.filterMap_cons_none (entryOf_exit event)]

def remembered : Option (Nat × UInt32 × Args) → List Event
  | none => []
  | some (tsNs, nr, args) => [.enter tsNs nr args]

theorem observe_trace (events : List Event) (o : Observed) :
    (events.foldl observe o).trace =
      o.trace ++ (adjacent (remembered o.pending ++ events)).filterMap entryOf := by
  induction events generalizing o with
  | nil =>
    cases h : o.pending with
    | none => simp [remembered, adjacent]
    | some p => simp [remembered, adjacent]
  | cons event events ih =>
    rw [List.foldl_cons, ih]
    cases event with
    | enter tsNs nr args =>
      cases h : o.pending with
      | none => simp [observe, onEnter, remembered]
      | some p => simp [observe, onEnter, remembered, adjacent_cons, entryOf_enter]
    | exit nr ret =>
      cases h : o.pending with
      | none => simp [observe, onExit, h, remembered, adjacent_exit]
      | some p =>
        obtain ⟨tsNs, pendingNr, args⟩ := p
        by_cases hnr : pendingNr = nr
        · simp [observe, onExit, h, hnr, remembered, adjacent_cons, entryOf, adjacent_exit]
        · simp [observe, onExit, h, hnr, remembered, adjacent_cons, entryOf, adjacent_exit]

/-- Whatever the order in which the observer is told of calls, the trace has an entry for each
exit that comes right after the entering of the same call, and no other. -/
theorem observed_adjacent (events : List Event) :
    (events.foldl observe .new).trace = (adjacent events).filterMap entryOf :=
  observe_trace events .new

end EdgeLibos.Cli
