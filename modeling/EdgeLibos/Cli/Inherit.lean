import EdgeLibos.Cli.Argv
import EdgeLibos.Lib.ParseInt
import EdgeLibos.Lib.StableSort

/-!
# Inherited descriptors

The variables `EDGE_SERVE_FD_<N>` name the listeners that `serve` takes over: `<N>` is the
descriptor in the snapshot and the value one of the parent. The environment comes in no
particular order.
-/

namespace EdgeLibos.Cli

open Lib

def EDGE_SERVE_FD_PREFIX : List Char := "EDGE_SERVE_FD_".toList

def parseU32 (text : List Char) : Except String UInt32 := (parseUnsigned (2 ^ 32 - 1) text).map UInt32.ofNat

def parseI32 : List Char → Except String Int
  | [] => .error "cannot parse integer from empty string"
  | c :: rest =>
    if c = '-' then (unsignedDigits (2 ^ 31) TOO_SMALL rest).map fun n => -Int.ofNat n
    else (unsignedDigits (2 ^ 31 - 1) TOO_LARGE (if c = '+' then rest else c :: rest)).map Int.ofNat

-- ---------------------------------------------------------------------------
-- The environment
-- ---------------------------------------------------------------------------

abbrev EnvVar := List Char × List Char

/-- `key.strip_prefix(EDGE_SERVE_FD_PREFIX)` -/
def slot? (key : List Char) : Option (List Char) :=
  if EDGE_SERVE_FD_PREFIX.isPrefixOf key then some (key.drop EDGE_SERVE_FD_PREFIX.length) else none

/-- One variable with the prefix: the descriptor it stands for and that of the parent. -/
def parseSlot (key suffix val : List Char) : Except CliError (UInt32 × Int32) :=
  match parseU32 suffix with
  | .error e => .error (.args ("serve: " ++ String.ofList key ++
      " suffix must be a non-negative integer (target fd slot): " ++ e))
  | .ok target =>
    match parseI32 val with
    | .error e => .error (.args ("serve: " ++ String.ofList key ++ "=" ++ String.ofList val ++ ": " ++ e))
    | .ok source =>
      if source < 0 then
        .error (.args ("serve: " ++ String.ofList key ++ "=" ++ toString source ++
          ": source fds must be non-negative"))
      else .ok (target, Int32.ofInt source)

def collectSlots : List EnvVar → Except CliError (List (UInt32 × Int32))
  | [] => .ok []
  | (key, val) :: rest =>
    match slot? key with
    | none => collectSlots rest
    | some suffix => do
      let entry ← parseSlot key suffix val
      let entries ← collectSlots rest
      .ok (entry :: entries)

def parseInheritedFds (env : List EnvVar) : Except CliError (List (UInt32 × Int32)) := do
  let entries ← collectSlots env
  .ok (sortByKey (fun e => e.1.toNat) entries)

def collectInheritEnv (env : List EnvVar) : List EnvVar := env.filter fun v => (slot? v.1).isSome

-- ---------------------------------------------------------------------------
-- Numbers as they are written
-- ---------------------------------------------------------------------------

theorem parseU32_toDigits (target : UInt32) : parseU32 (Nat.toDigits 10 target.toNat) = .ok target := by
  have hlt := target.toNat_lt
  rw [parseU32, parseUnsigned_toDigits (by omega)]
  simp only [Except.map, UInt32.ofNat_toNat]

theorem parseI32_toDigits (h : n < 2 ^ 31) : parseI32 (Nat.toDigits 10 n) = .ok n := by
  have hok := unsignedDigits_toDigits TOO_LARGE (show n ≤ 2 ^ 31 - 1 by omega)
  obtain ⟨c, rest, htext, hc⟩ := Json.toDigits_cons n
  have hplus : c ≠ '+' := Json.digit_ne hc rfl
  have hminus : c ≠ '-' := Json.digit_ne hc rfl
  rw [htext] at hok ⊢
  simp only [parseI32, hplus, hminus, if_false, hok, Except.map]
  rfl

-- ---------------------------------------------------------------------------
-- Entries in any order
-- ---------------------------------------------------------------------------

variable {env env' : List EnvVar} {fds entries : List (UInt32 × Int32)}

/-- The entry of a variable that has the prefix and parses. -/
def inheritedEntry (v : EnvVar) : Option (UInt32 × Int32) :=
  (slot? v.1).bind fun suffix => (parseSlot v.1 suffix v.2).toOption

theorem collectInheritEnv_some (h : slot? key = some suffix) (val : List Char) (env : List EnvVar) :
    collectInheritEnv ((key, val) :: env) = (key, val) :: collectInheritEnv env := by
  simp [collectInheritEnv, h]

theorem collectInheritEnv_none (h : slot? key = none) (val : List Char) (env : List EnvVar) :
    collectInheritEnv ((key, val) :: env) = collectInheritEnv env := by
  simp [collectInheritEnv, h]

theorem collectSlots_some (h : slot? key = some suffix) (val : List Char) (env : List EnvVar) :
    collectSlots ((key, val) :: env) =
      parseSlot key suffix val >>= fun entry => collectSlots env >>= fun entries => .ok (entry :: entries) := by
  simp [collectSlots, h]

theorem collectSlots_none (h : slot? key = none) (val : List Char) (env : List EnvVar) :
    collectSlots ((key, val) :: env) = collectSlots env := by
  simp [collectSlots, h]

/-- The loop succeeds if every variable with the prefix parses, with their entries in order. -/
theorem collectSlots_ok_iff : collectSlots env = .ok entries ↔
    (∀ v ∈ collectInheritEnv env, (inheritedEntry v).isSome) ∧
      entries = (collectInheritEnv env).filterMap inheritedEntry := by
  induction env generalizing entries with
  | nil =>
    constructor
    · intro h
      cases h
      exact ⟨by simp [collectInheritEnv], rfl⟩
    · rintro ⟨-, rfl⟩
      rfl
  | cons v env ih =>
    obtain ⟨key, val⟩ := v
    cases hslot : slot? key with
    | none => simp [collectSlots_none hslot, collectInheritEnv_none hslot, ih]
    | some suffix =>
      rw [collectSlots_some hslot, collectInheritEnv_some hslot]
      cases hparse : parseSlot key suffix val with
      | error e => simp [inheritedEntry, hslot, hparse, bind, Except.bind, Except.toOption]
      | ok entry =>
        have hentry : inheritedEntry (key, val) = some entry := by simp [inheritedEntry, hslot, hparse, Except.toOption]
        rw [List.forall_mem_cons, List.filterMap_cons_some hentry]
        constructor
        · intro h
          obtain ⟨first, hfirst, h⟩ := bind_ok h
          obtain ⟨rest, hrest, h⟩ := bind_ok h
          obtain ⟨hall, rfl⟩ := ih.mp hrest
          cases hfirst
          cases h
          exact ⟨⟨by simp [hentry], hall⟩, rfl⟩
        · rintro ⟨⟨-, hall⟩, rfl⟩
          rw [ih.mpr ⟨hall, rfl⟩]
          rfl

theorem parseInheritedFds_ok : parseInheritedFds env = .ok fds ↔
    ∃ entries, collectSlots env = .ok entries ∧ fds = sortByKey (fun e => e.1.toNat) entries := by
  unfold parseInheritedFds
  constructor
  · intro h
    obtain ⟨entries, hentries, h⟩ := bind_ok h
    cases h
    exact ⟨entries, hentries, rfl⟩
  · rintro ⟨entries, hentries, rfl⟩
    rw [hentries]
    rfl

/-- `serve` sees in what `migrate` passes on what it sees in all of it, errors included. -/
theorem collectSlots_collectInheritEnv (env : List EnvVar) :
    collectSlots (collectInheritEnv env) = collectSlots env := by
  induction env with
  | nil => rfl
  | cons v env ih =>
    obtain ⟨key, val⟩ := v
    cases hslot : slot? key with
    | none => rw [collectInheritEnv_none hslot, collectSlots_none hslot, ih]
    | some suffix => rw [collectInheritEnv_some hslot, collectSlots_some hslot, collectSlots_some hslot, ih]

-- ---------------------------------------------------------------------------
-- The variables of a table
-- ---------------------------------------------------------------------------

def slotVar (e : UInt32 × Int32) : EnvVar :=
  (EDGE_SERVE_FD_PREFIX ++ Nat.toDigits 10 e.1.toNat, Nat.toDigits 10 e.2.toInt.toNat)

theorem slot?_append (suffix : List Char) : slot? (EDGE_SERVE_FD_PREFIX ++ suffix) = some suffix := by
  simp [slot?]

theorem inheritedEntry_slotVar (h : 0 ≤ e.2.toInt) : inheritedEntry (slotVar e) = some e := by
  obtain ⟨target, source⟩ := e
  have hlt := source.toInt_lt
  have hnat : ((source.toInt.toNat : Nat) : Int) = source.toInt := Int.toNat_of_nonneg h
  have hval : parseI32 (Nat.toDigits 10 source.toInt.toNat) = .ok source.toInt := by
    rw [parseI32_toDigits (by omega), hnat]
  have hnonneg : ¬ source.toInt < 0 := by omega
  simp only [inheritedEntry, slotVar, slot?_append, Option.bind_some, parseSlot, parseU32_toDigits, hval, hnonneg,
    if_false, Except.toOption, Int32.ofInt_toInt]

theorem filterMap_slotVar (h : ∀ e ∈ fds, 0 ≤ e.2.toInt) : (fds.map slotVar).filterMap inheritedEntry = fds := by
  induction fds with
  | nil => rfl
  | cons e fds ih =>
    have hrest := ih fun e' he => h e' (List.mem_cons_of_mem e he)
    rw [List.map_cons, List.filterMap_cons_some (inheritedEntry_slotVar (h e List.mem_cons_self)), hrest]

/-- A table of slots in ascending order is read from variables in any order, among any others,
by `serve` itself and through `migrate`. -/
theorem parse_inherited (hsorted : fds.Pairwise fun a b => a.1 < b.1) (hsources : ∀ e ∈ fds, 0 ≤ e.2.toInt)
    (henv : (collectInheritEnv env).Perm (fds.map slotVar)) :
    parseInheritedFds env = .ok fds ∧ parseInheritedFds (collectInheritEnv env) = .ok fds := by
  have hall : ∀ v ∈ collectInheritEnv env, (inheritedEntry v).isSome := by
    intro v hv
    obtain ⟨e, he, rfl⟩ := List.mem_map.mp (henv.mem_iff.mp hv)
    simp [inheritedEntry_slotVar (hsources e he)]
  have hentries : ((collectInheritEnv env).filterMap inheritedEntry).Perm fds := by
    have hperm := henv.filterMap inheritedEntry
    rwa [filterMap_slotVar hsources] at hperm
  have hkeys : (((collectInheritEnv env).filterMap inheritedEntry).map fun e => e.1.toNat).Nodup := by
    rw [(hentries.map _).nodup_iff, List.Nodup, List.pairwise_map]
    apply hsorted.imp
    intro a b hlt heq
    have hlt := UInt32.lt_iff_toNat_lt.mp hlt
    omega
  have hsort : sortByKey (fun e => e.1.toNat) ((collectInheritEnv env).filterMap inheritedEntry) = fds := by
    rw [sortByKey_eq_of_perm hentries hkeys]
    apply sortByKey_of_pairwise
    apply hsorted.imp
    intro a b hlt
    exact Nat.le_of_lt (UInt32.lt_iff_toNat_lt.mp hlt)
  have hok := parseInheritedFds_ok.mpr ⟨_, collectSlots_ok_iff.mpr ⟨hall, rfl⟩, hsort.symm⟩
  refine ⟨hok, ?_⟩
  rwa [parseInheritedFds, collectSlots_collectInheritEnv]

theorem parse_inherited_two :
    (collectInheritEnv [("PATH".toList, "/bin".toList), slotVar (10, 4), slotVar (9, 3)]).Perm
        ([(9, 3), (10, 4)].map slotVar) ∧
      parseInheritedFds [("PATH".toList, "/bin".toList), slotVar (10, 4), slotVar (9, 3)] = .ok [(9, 3), (10, 4)] := by
  have henv : (collectInheritEnv [("PATH".toList, "/bin".toList), slotVar (10, 4), slotVar (9, 3)]).Perm
      ([(9, 3), (10, 4)].map slotVar) := by
    have hpath : slot? "PATH".toList = none := by decide
    rw [collectInheritEnv_none hpath, slotVar, slotVar, collectInheritEnv_some (slot?_append _),
      collectInheritEnv_some (slot?_append _)]
    exact List.Perm.swap _ _ _
  have hsources : ∀ e ∈ [((9 : UInt32), (3 : Int32)), (10, 4)], 0 ≤ e.2.toInt :=
    List.forall_mem_cons.mpr ⟨by decide, List.forall_mem_singleton.mpr (by decide)⟩
  exact ⟨henv, (parse_inherited (by decide) hsources henv).1⟩

theorem filter_slot (slot : UInt32) (l : List (UInt32 × Int32)) :
    l.filter (fun e => e.1.toNat = slot.toNat) = l.filter fun e => e.1 = slot := by
  simp only [UInt32.toNat_inj]

theorem filter_slot_beyond (h : 2 ^ 32 ≤ k) (l : List (UInt32 × Int32)) :
    l.filter (fun e => e.1.toNat = k) = [] := by
  apply List.filter_eq_nil_iff.mpr
  intro e _
  have hlt := e.1.toNat_lt
  simp only [decide_eq_true_eq]
  omega

/-- What `serve` makes of the variables: it takes them if every one with the prefix parses, in
ascending order of the slots, and where several name one slot, in the order they came in. -/
theorem parseInheritedFds_ok_iff : parseInheritedFds env = .ok fds ↔
    (∀ v ∈ collectInheritEnv env, (inheritedEntry v).isSome) ∧ fds.Pairwise (fun a b => a.1 ≤ b.1) ∧
      ∀ slot, fds.filter (fun e => e.1 = slot) =
        ((collectInheritEnv env).filterMap inheritedEntry).filter fun e => e.1 = slot := by
  have hslots : (∀ k, fds.filter (fun e => e.1.toNat = k) =
        ((collectInheritEnv env).filterMap inheritedEntry).filter fun e => e.1.toNat = k) ↔
      ∀ slot, fds.filter (fun e => e.1 = slot) =
        ((collectInheritEnv env).filterMap inheritedEntry).filter fun e => e.1 = slot := by
    constructor
    · intro h slot
      rw [← filter_slot, ← filter_slot]
      exact h slot.toNat
    · intro h k
      rcases Nat.lt_or_ge k (2 ^ 32) with hlt | hge
      · rw [← UInt32.toNat_ofNat_of_lt' hlt, filter_slot, filter_slot]
        exact h (UInt32.ofNat k)
      · rw [filter_slot_beyond hge, filter_slot_beyond hge]
  rw [parseInheritedFds_ok]
  constructor
  · rintro ⟨entries, hok, hfds⟩
    obtain ⟨hall, rfl⟩ := collectSlots_ok_iff.mp hok
    obtain ⟨hpair, hfilter⟩ := eq_sortByKey_iff.mp hfds
    exact ⟨hall, hpair, hslots.mp hfilter⟩
  · rintro ⟨hall, hpair, hfilter⟩
    exact ⟨_, collectSlots_ok_iff.mpr ⟨hall, rfl⟩, eq_sortByKey_iff.mpr ⟨hpair, hslots.mpr hfilter⟩⟩

end EdgeLibos.Cli
