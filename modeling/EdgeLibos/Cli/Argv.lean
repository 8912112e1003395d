import EdgeLibos.Fd
import EdgeLibos.Lib.ParseInt
import EdgeLibos.Lib.Runs

/-!
# The arguments of the command line tool

`run`, `freeze` and `migrate` each take the guest's arguments after a `--`. The loops of
`run` and `freeze` look for their option in all of the words, so a guest argument that is
the option is taken for it; `migrate` passes the arguments on to `freeze`.
-/

namespace EdgeLibos.Cli

open Lib

/-- The usage errors, by their message. -/
inductive CliError
  | args (msg : String)
  deriving DecidableEq, Repr

def USAGE_RUN : String := "usage: edge-cli run <wasm> [--] [args...] [--cpu-budget-ms <ms>]"
def USAGE_FREEZE : String := "usage: edge-cli freeze <wasm> [--] [args...] --out <path>"
def USAGE_MIGRATE : String := "usage: edge-cli migrate <wasm> [--] [args...]"

/-- `u64::MAX`, for no budget at all. -/
def RUN_DEFAULT_BUDGET_MS : Nat := 2 ^ 64 - 1

def parseU64 (raw : String) : Except String Nat := parseUnsigned (2 ^ 64 - 1) raw.toList

def scan (option missing : String) (read : String → Except CliError β) :
    β → List String → Except CliError (β × List String)
  | value, [] => .ok (value, [])
  | value, a :: rest =>
    if a = option then
      match rest with
      | [] => .error (.args missing)
      | raw :: rest => do
        let value ← read raw
        scan option missing read value rest
    else do
      let (value, positional) ← scan option missing read value rest
      .ok (value, a :: positional)

/-- The wasm path and the guest's arguments among the words that are no options. -/
def splitGuest : List String → Option (String × List String)
  | [] => none
  | wasm :: rest => some (wasm, if rest.head? = some "--" then rest.tail else rest)

-- ---------------------------------------------------------------------------
-- The three parsers
-- ---------------------------------------------------------------------------

def readBudget (raw : String) : Except CliError Nat :=
  match parseU64 raw with
  | .error e => .error (.args ("run: --cpu-budget-ms: " ++ e))
  | .ok ms =>
    if ms = 0 then .error (.args "run: --cpu-budget-ms 0 is reserved (would trap on first instruction)")
    else .ok ms

def parseRunArgv (args : List String) : Except CliError (String × Nat × List String) := do
  if args.isEmpty then .error (.args USAGE_RUN)
  else
    let (budgetMs, rest) ← scan "--cpu-budget-ms" "run: --cpu-budget-ms requires a number" readBudget
      RUN_DEFAULT_BUDGET_MS args
    match splitGuest rest with
    | none => .error (.args USAGE_RUN)
    | some (wasmPath, scriptArgs) => .ok (wasmPath, budgetMs, scriptArgs)

def readOut (p : String) : Except CliError (Option PathBuf) := .ok (some p)

/-- The argv loop of `freeze::run_main`. -/
def parseFreezeArgv (args : List String) : Except CliError (PathBuf × String × List String) := do
  let (out, positional) ← scan "--out" "freeze: --out requires a path argument" readOut none args
  match out with
  | none => .error (.args USAGE_FREEZE)
  | some out =>
    match splitGuest positional with
    | none => .error (.args USAGE_FREEZE)
    | some (wasmPath, guestArgs) => .ok (out, wasmPath, guestArgs)

/-- Only the first `--` is dropped. -/
def migrateLoop (seenDashdash : Bool) : List String → List String
  | [] => []
  | a :: rest =>
    if !seenDashdash && a = "--" then migrateLoop true rest else a :: migrateLoop seenDashdash rest

def parseMigrateArgs : List String → Except CliError (PathBuf × List String)
  | [] => .error (.args USAGE_MIGRATE)
  | wasm :: rest => .ok (wasm, migrateLoop false rest)

def freezeArgv (wasmPath : PathBuf) (guestArgs : List String) (snapPath : PathBuf) : List String :=
  ["freeze", wasmPath] ++ (if guestArgs.isEmpty then [] else "--" :: guestArgs) ++ ["--out", snapPath]

-- ---------------------------------------------------------------------------
-- What the loop keeps
-- ---------------------------------------------------------------------------

variable {option missing : String} {read : String → Except CliError β} {options : List (String × β)}

theorem scan_option (missing : String) (read : String → Except CliError β) (raw : String) (value : β)
    (rest : List String) : scan option missing read value (option :: raw :: rest) =
      read raw >>= fun value => scan option missing read value rest := by
  simp [scan]

theorem scan_word (h : a ≠ option) (missing : String) (read : String → Except CliError β) (value : β)
    (rest : List String) : scan option missing read value (a :: rest) =
      (scan option missing read value rest).map fun (v, positional) => (v, a :: positional) := by
  rw [scan.eq_def]
  simp only [h, if_false]
  cases scan option missing read value rest with
  | error e => rfl
  | ok r => rfl

theorem map_ok {x : Except ε α} {f : α → β} (h : x.map f = .ok b) : ∃ a, x = .ok a ∧ f a = b := by
  cases x with
  | error e => cases h
  | ok a =>
    cases h
    exact ⟨a, rfl, rfl⟩

theorem scan_positional (h : scan option missing read value args = .ok (v, positional)) : option ∉ positional := by
  induction hn : args.length using Nat.strong_induction_on generalizing args value v positional with
  | _ n ih =>
    subst hn
    cases args with
    | nil =>
      cases h
      simp
    | cons a rest =>
      by_cases ha : a = option
      · subst ha
        cases rest with
        | nil => simp [scan] at h
        | cons raw rest =>
          rw [scan_option] at h
          obtain ⟨value', -, h⟩ := bind_ok h
          refine ih _ ?_ h rfl
          simp only [List.length_cons]
          omega
      · rw [scan_word ha] at h
        obtain ⟨⟨v', positional'⟩, hrest, heq⟩ := map_ok h
        cases heq
        rw [List.mem_cons, not_or]
        exact ⟨Ne.symm ha, ih _ (by simp) hrest rfl⟩

theorem scan_append (h : option ∉ pre) (missing : String) (read : String → Except CliError β) (value : β)
    (rest : List String) : scan option missing read value (pre ++ rest) =
      (scan option missing read value rest).map fun (v, positional) => (v, pre ++ positional) := by
  induction pre with
  | nil =>
    cases hscan : scan option missing read value rest with
    | error e => exact hscan
    | ok r => exact hscan
  | cons a pre ih =>
    rw [List.mem_cons, not_or] at h
    rw [List.cons_append, scan_word (Ne.symm h.1), ih h.2]
    cases scan option missing read value rest with
    | error e => rfl
    | ok r => rfl

theorem scan_free (h : option ∉ args) (missing : String) (read : String → Except CliError β) (value : β) :
    scan option missing read value args = .ok (value, args) := by
  have hscan := scan_append h missing read value []
  simpa [scan, Except.map] using hscan

def optionWords (option : String) (values : List String) : List String :=
  values.flatMap fun raw => [option, raw]

theorem scan_options (h : ∀ o ∈ options, read o.1 = .ok o.2) (missing : String) (value : β) (rest : List String) :
    scan option missing read value (optionWords option (options.map Prod.fst) ++ rest) =
      scan option missing read ((options.map Prod.snd).getLastD value) rest := by
  induction options generalizing value with
  | nil => rfl
  | cons o options ih =>
    have hread := h o List.mem_cons_self
    have hrest := ih (fun o ho => h o (List.mem_cons_of_mem _ ho)) o.2
    have hwords : optionWords option ((o :: options).map Prod.fst) ++ rest =
        option :: o.1 :: (optionWords option (options.map Prod.fst) ++ rest) := rfl
    rw [hwords, scan_option, hread, List.map_cons, List.getLastD_cons]
    exact hrest

theorem splitGuest_some (h : splitGuest positional = some (wasm, guest)) :
    wasm ∈ positional ∧ guest ⊆ positional := by
  cases positional with
  | nil => cases h
  | cons a rest =>
    cases h
    refine ⟨List.mem_cons_self, ?_⟩
    split
    · exact fun x hx => List.mem_cons_of_mem _ (List.mem_of_mem_tail hx)
    · exact List.subset_cons_self _ _

-- ---------------------------------------------------------------------------
-- The guest's arguments
-- ---------------------------------------------------------------------------

/-- Neither the path nor a guest argument is the option. -/
def Free (option wasm : String) (guest : List String) : Prop := wasm ≠ option ∧ option ∉ guest

theorem free_of_scan (h : scan option missing read value args = .ok (v, positional))
    (hsplit : splitGuest positional = some (wasm, guest)) : Free option wasm guest := by
  have hnone := scan_positional h
  obtain ⟨hwasm, hguest⟩ := splitGuest_some hsplit
  refine ⟨?_, fun hin => hnone (hguest hin)⟩
  rintro rfl
  exact hnone hwasm

/-- The words before the separator are read as options and those after it kept. -/
theorem scan_separated (h : Free option wasm guest) (hsep : option ≠ "--")
    (hoptions : ∀ o ∈ options, read o.1 = .ok o.2) (missing : String) (value : β) :
    scan option missing read value (wasm :: (optionWords option (options.map Prod.fst) ++ "--" :: guest)) =
      .ok ((options.map Prod.snd).getLastD value, wasm :: "--" :: guest) := by
  have hguest : option ∉ "--" :: guest := by simp [hsep, h.2]
  rw [scan_word h.1, scan_options hoptions, scan_free hguest]
  rfl

theorem parseRunArgv_iff {options : List (String × Nat)} (hoptions : ∀ o ∈ options, readBudget o.1 = .ok o.2)
    (wasm : String) (guest : List String) :
    parseRunArgv (wasm :: (optionWords "--cpu-budget-ms" (options.map Prod.fst) ++ "--" :: guest)) =
        .ok (wasm, (options.map Prod.snd).getLastD RUN_DEFAULT_BUDGET_MS, guest) ↔
      Free "--cpu-budget-ms" wasm guest := by
  constructor
  · intro h
    obtain ⟨⟨budget, positional⟩, hscan, h⟩ := bind_ok h
    dsimp only at h
    split at h
    · cases h
    · rename_i hsplit
      cases h
      exact free_of_scan hscan hsplit
  · intro h
    simp only [parseRunArgv, List.isEmpty_cons, scan_separated h (by simp) hoptions]
    rfl

/-- What `freeze` reads is free of its option, and so is the path. -/
theorem parseFreezeArgv_ok (h : parseFreezeArgv args = .ok (out, wasm, guest)) : Free "--out" wasm guest := by
  obtain ⟨⟨found, positional⟩, hscan, h⟩ := bind_ok h
  dsimp only at h
  split at h
  · cases h
  · split at h
    · cases h
    · rename_i hsplit
      cases h
      exact free_of_scan hscan hsplit

theorem parseFreezeArgv_iff (wasm : String) (outs : List PathBuf) (out : PathBuf) (guest : List String) :
    parseFreezeArgv (wasm :: (optionWords "--out" (outs ++ [out]) ++ "--" :: guest)) = .ok (out, wasm, guest) ↔
      Free "--out" wasm guest := by
  constructor
  · exact parseFreezeArgv_ok
  · intro h
    have hread : ∀ o ∈ (outs ++ [out]).map fun p => (p, some p), readOut o.1 = .ok o.2 := by
      rintro o ho
      obtain ⟨p, -, rfl⟩ := List.mem_map.mp ho
      rfl
    have hscan := scan_separated h (by simp) hread "freeze: --out requires a path argument" none
    simp only [List.map_map, Function.comp_def, List.map_id'] at hscan
    simp only [parseFreezeArgv, hscan]
    simp [Bind.bind, Except.bind, splitGuest]

-- ---------------------------------------------------------------------------
-- From `migrate` to `freeze`
-- ---------------------------------------------------------------------------

theorem migrateLoop_seen (words : List String) : migrateLoop true words = words := by
  induction words with
  | nil => rfl
  | cons a rest ih => simp [migrateLoop, ih]

theorem parseMigrateArgs_separated (wasm : String) (guest : List String) :
    parseMigrateArgs (wasm :: "--" :: guest) = .ok (wasm, guest) := by
  simp [parseMigrateArgs, migrateLoop, migrateLoop_seen]

/-- `freeze` takes the last `--out`, which is the one that `migrate` appended. -/
theorem parseFreezeArgv_freezeArgv_iff (wasm : String) (guest : List String) (snap : PathBuf) :
    parseFreezeArgv (freezeArgv wasm guest snap).tail = .ok (snap, wasm, guest) ↔ Free "--out" wasm guest := by
  constructor
  · exact parseFreezeArgv_ok
  · intro h
    have hpre : "--out" ∉ wasm :: (if guest.isEmpty then [] else "--" :: guest) := by
      cases guest with
      | nil => simpa using h.1.symm
      | cons g guest => simpa [Free, eq_comm] using h
    have hscan := scan_append hpre "freeze: --out requires a path argument" readOut none ["--out", snap]
    have hwords : (freezeArgv wasm guest snap).tail =
        (wasm :: (if guest.isEmpty then [] else "--" :: guest)) ++ ["--out", snap] := by
      simp [freezeArgv]
    rw [hwords, parseFreezeArgv, hscan]
    cases guest with
    | nil => simp [scan, readOut, Except.map, Bind.bind, Except.bind, splitGuest]
    | cons g guest => simp [scan, readOut, Except.map, Bind.bind, Except.bind, splitGuest]

theorem guest_args_verbatim_iff (wasm : String) (guest : List String) (options : List (String × Nat))
    (hoptions : ∀ o ∈ options, readBudget o.1 = .ok o.2) (outs : List PathBuf) (out snap : PathBuf) :
    (parseRunArgv (wasm :: (optionWords "--cpu-budget-ms" (options.map Prod.fst) ++ "--" :: guest)) =
        .ok (wasm, (options.map Prod.snd).getLastD RUN_DEFAULT_BUDGET_MS, guest) ↔
      Free "--cpu-budget-ms" wasm guest) ∧
    (parseFreezeArgv (wasm :: (optionWords "--out" (outs ++ [out]) ++ "--" :: guest)) = .ok (out, wasm, guest) ↔
      Free "--out" wasm guest) ∧
    ((∃ parsed, parseMigrateArgs (wasm :: "--" :: guest) = .ok parsed ∧ parsed = (wasm, guest) ∧
        parseFreezeArgv (freezeArgv parsed.1 parsed.2 snap).tail = .ok (snap, wasm, guest)) ↔
      Free "--out" wasm guest) := by
  refine ⟨parseRunArgv_iff hoptions wasm guest, parseFreezeArgv_iff wasm outs out guest, ?_, ?_⟩
  · rintro ⟨_, -, rfl, hfreeze⟩
    exact parseFreezeArgv_ok hfreeze
  · intro h
    exact ⟨(wasm, guest), parseMigrateArgs_separated wasm guest, rfl,
      (parseFreezeArgv_freezeArgv_iff wasm guest snap).mpr h⟩

theorem guest_args_verbatim_app :
    (parseRunArgv ["app.wasm", "--cpu-budget-ms", "250", "--", "--", "-v"] = .ok ("app.wasm", 250, ["--", "-v"]) ↔
      Free "--cpu-budget-ms" "app.wasm" ["--", "-v"]) ∧
    (parseFreezeArgv ["app.wasm", "--out", "a.snap", "--", "--", "-v"] = .ok ("a.snap", "app.wasm", ["--", "-v"]) ↔
      Free "--out" "app.wasm" ["--", "-v"]) ∧
    ((∃ parsed, parseMigrateArgs ["app.wasm", "--", "--", "-v"] = .ok parsed ∧ parsed = ("app.wasm", ["--", "-v"]) ∧
        parseFreezeArgv (freezeArgv parsed.1 parsed.2 "m.snap").tail = .ok ("m.snap", "app.wasm", ["--", "-v"])) ↔
      Free "--out" "app.wasm" ["--", "-v"]) :=
  guest_args_verbatim_iff "app.wasm" ["--", "-v"] [("250", 250)]
    (by simp [readBudget, parseU64, parseUnsigned, unsignedDigits, digitsUpTo]) [] "a.snap" "m.snap"

/-- A guest argument that is the option is read as the option, and the word after it is lost. -/
theorem guest_args_swallowed :
    parseRunArgv ["app.wasm", "--", "--cpu-budget-ms", "5"] = .ok ("app.wasm", 5, []) ∧
    parseFreezeArgv ["app.wasm", "--out", "a.snap", "--", "--out", "x"] = .ok ("x", "app.wasm", []) ∧
    parseMigrateArgs ["app.wasm", "--", "--out", "x"] = .ok ("app.wasm", ["--out", "x"]) ∧
    parseFreezeArgv (freezeArgv "app.wasm" ["--out", "x"] "m.snap").tail = .ok ("m.snap", "app.wasm", []) := by
  decide

end EdgeLibos.Cli
