import EdgeLibos.Lib.HashMap
import EdgeLibos.Lib.Runs
import EdgeLibos.Sys.Resolver
import Mathlib.Data.List.MinMax

/-!
# The resolver's cache

Calls of `NR_RESOLVE` from fibers that share one process. A call holds the lock while
it looks into the cache and while it inserts, and not while the backend looks the name
up, so the calls of other fibers come between these steps. The configuration was set
before the process was shared. Times are nanoseconds of the monotonic clock.
-/

namespace EdgeLibos.Resolver

open Errno Lib

def MAX_CACHE_ENTRIES : Nat := 1024

structure CacheEntry where
  addrs : List IpAddr
  inserted : Nat
  deriving DecidableEq, Repr

abbrev Cache := HashMap String CacheEntry

structure ResolverConfig where
  denylist : List IpAddr
  ttlMs : UInt64
  timeoutMs : UInt64

def ttlNs (cfg : ResolverConfig) : Nat := cfg.ttlMs.toNat * 1000000

def cached (cfg : ResolverConfig) (cache : Cache) (now : Nat) (node : String) : Option CacheEntry :=
  (cache.get? node).filter fun e => cfg.ttlMs = 0 ∨ now - e.inserted < ttlNs cfg

def oldestKey (cache : Cache) : Option String :=
  (cache.entries.argmin fun e => e.2.inserted).map Prod.fst

def evictOldest (cache : Cache) : Cache :=
  if cache.entries.length ≥ MAX_CACHE_ENTRIES then
    match oldestKey cache with
    | some key => cache.erase key
    | none => cache
  else cache

def cacheInsert (cache : Cache) (node : String) (addrs : List IpAddr) (now : Nat) : Cache :=
  (evictOldest cache).insert node { addrs, inserted := now }

/-- What the backend says within the timeout. -/
inductive Lookup
  | timeout
  | failed
  | found (addrs : List IpAddr)
  deriving DecidableEq, Repr

def Lookup.result : Lookup → Except Int (List IpAddr)
  | .timeout => .error EAI_AGAIN
  | .failed => .error EAI_FAIL
  | .found addrs => .ok addrs

/-- What a call has read from guest memory. -/
structure Asked where
  node : String
  hints : Hints
  port : UInt16
  resPtrPtr : UInt32
  deriving DecidableEq, Repr

/-- The end of a call that has an answer. -/
def Asked.finish (cfg : ResolverConfig) (memory : Option MemoryKind) (a : Asked) (addrs : List IpAddr) :
    Int × Option MemoryKind :=
  let outSocktype := if a.hints.aiSocktype = 0 then 1 else a.hints.aiSocktype
  marshalAndReturn memory addrs a.hints.aiFlags a.hints.aiFamily outSocktype a.port a.hints.aiProtocol
    cfg.denylist a.resPtrPtr

/-- With the answer for its parameter, `resolve` is what a call does as a whole. -/
theorem resolve_eq (cfg : ResolverConfig) (hread : readRequest memory r = .ok (node, hints, port))
    (lookup : String → Except Int (List IpAddr)) (h : lookup node = .ok addrs) :
    resolve { lookup, denylist := cfg.denylist } memory r =
      Asked.finish cfg memory { node, hints, port, resPtrPtr := r.resPtrPtr } addrs := by
  simp only [resolve, hread, h, Asked.finish]

-- ---------------------------------------------------------------------------
-- Fibers
-- ---------------------------------------------------------------------------

/-- Where a fiber stands in a call. With its answer goes what the backend said to this
very call, and the time of the answer. -/
inductive Stage
  | idle
  | looking (a : Asked)
  | found (a : Asked) (addrs : List IpAddr)
  | ready (a : Asked) (addrs : List IpAddr) (lookup : Option (List IpAddr)) (time : Nat)

structure Fiber where
  memory : Option MemoryKind
  stage : Stage

structure Insertion where
  node : String
  addrs : List IpAddr
  time : Nat
  deriving DecidableEq, Repr

/-- A call that had an answer: what it asked, the answer, what the backend said to it,
when the answer came, and the guest's memory before and after. -/
structure Return where
  asked : Asked
  addrs : List IpAddr
  lookup : Option (List IpAddr)
  time : Nat
  before : Option MemoryKind
  after : Option MemoryKind
  value : Int

/-- The insertions and the returns so far are kept along. -/
structure Resolvers where
  cache : Cache
  now : Nat
  fibers : Nat → Fiber
  insertions : List Insertion
  returns : List Return

inductive ResolverAct
  | tick (elapsed : Nat)
  | memory (i : Nat) (m : Option MemoryKind)
  | call (i : Nat) (r : Request)
  | answer (i : Nat) (said : Lookup)
  | insert (i : Nat)
  | finish (i : Nat)

namespace Resolvers

def start (memories : Nat → Option MemoryKind) : Resolvers where
  cache := .empty
  now := 0
  fibers i := { memory := memories i, stage := .idle }
  insertions := []
  returns := []

def setFiber (s : Resolvers) (i : Nat) (f : Fiber) : Resolvers :=
  { s with fibers := Function.update s.fibers i f }

def setStage (s : Resolvers) (i : Nat) (stage : Stage) : Resolvers :=
  s.setFiber i { s.fibers i with stage }

/-- A call that has no request to make returns at once. -/
def call (cfg : ResolverConfig) (s : Resolvers) (i : Nat) (r : Request) : Resolvers :=
  match readRequest (s.fibers i).memory r with
  | .error _ => s
  | .ok (node, hints, port) =>
    let a := { node, hints, port, resPtrPtr := r.resPtrPtr }
    match cached cfg s.cache s.now node with
    | some e => s.setStage i (.ready a e.addrs none s.now)
    | none => s.setStage i (.looking a)

def insert (s : Resolvers) (i : Nat) (a : Asked) (addrs : List IpAddr) : Resolvers :=
  { s.setStage i (.ready a addrs (some addrs) s.now) with
    cache := cacheInsert s.cache a.node addrs s.now
    insertions := { node := a.node, addrs, time := s.now } :: s.insertions }

def finish (cfg : ResolverConfig) (s : Resolvers) (i : Nat) (a : Asked) (addrs : List IpAddr)
    (lookup : Option (List IpAddr)) (time : Nat) : Resolvers :=
  let before := (s.fibers i).memory
  let (value, after) := a.finish cfg before addrs
  { s.setFiber i { memory := after, stage := .idle } with
    returns := { asked := a, addrs, lookup, time, before, after, value } :: s.returns }

def next (cfg : ResolverConfig) (s : Resolvers) : ResolverAct → Option Resolvers
  | .tick elapsed => some { s with now := s.now + elapsed }
  | .memory i m => some (s.setFiber i { s.fibers i with memory := m })
  | .call i r =>
    match (s.fibers i).stage with
    | .idle => some (s.call cfg i r)
    | _ => none
  | .answer i said =>
    match (s.fibers i).stage with
    | .looking a =>
      match said.result with
      | .error _ => some (s.setStage i .idle)
      | .ok addrs => some (s.setStage i (.found a addrs))
    | _ => none
  | .insert i =>
    match (s.fibers i).stage with
    | .found a addrs => some (s.insert i a addrs)
    | _ => none
  | .finish i =>
    match (s.fibers i).stage with
    | .ready a addrs lookup time => some (s.finish cfg i a addrs lookup time)
    | _ => none

end Resolvers

-- ---------------------------------------------------------------------------
-- What an answer may hold
-- ---------------------------------------------------------------------------

/-- An address of the family that was asked for, and not on the denylist. -/
def Allowed (cfg : ResolverConfig) (family : Int32) (ip : IpAddr) : Prop :=
  ip ∉ cfg.denylist ∧ (family = 2 → isIpv4 ip = true) ∧ (family = 10 → isIpv4 ip = false)

/-- What a call may leave in guest memory when it marshals these addresses: nothing, the
payload, or the payload and the word that leads to it. -/
inductive Marshals (r : Return) (addrs : List IpAddr) : Prop
  | nothing (h : r.after = r.before)
  | payload (socktype protocol : Int32)
      (h : guestCopy r.before RESOLVER_SCRATCH_BASE
        (marshalAddrinfoIntoVec r.asked.hints.aiFlags socktype protocol r.asked.port addrs).1.length
        (marshalAddrinfoIntoVec r.asked.hints.aiFlags socktype protocol r.asked.port addrs).1 = .ok r.after)
  | whole (socktype protocol : Int32) (m : Option MemoryKind)
      (h : guestCopy r.before RESOLVER_SCRATCH_BASE
        (marshalAddrinfoIntoVec r.asked.hints.aiFlags socktype protocol r.asked.port addrs).1.length
        (marshalAddrinfoIntoVec r.asked.hints.aiFlags socktype protocol r.asked.port addrs).1 = .ok m)
      (hhead : guestCopy m r.asked.resPtrPtr.toNat 4 (le32 0) = .ok r.after)

/-- Everything marshalled is allowed. -/
def Safe (cfg : ResolverConfig) (r : Return) : Prop :=
  ∃ addrs, Marshals r addrs ∧ ∀ ip ∈ addrs, Allowed cfg r.asked.hints.aiFamily ip

/-- An answer that the backend gave to this call, or that was inserted for the same name
less than the lifetime before. -/
def Fresh (cfg : ResolverConfig) (insertions : List Insertion) (node : String) (addrs : List IpAddr)
    (lookup : Option (List IpAddr)) (time : Nat) : Prop :=
  lookup = some addrs ∨ ∃ e ∈ insertions, e.node = node ∧ e.addrs = addrs ∧ e.time ≤ time ∧
    time - e.time < ttlNs cfg

variable {cfg : ResolverConfig} {s s' : Resolvers}

theorem Fresh.mono (h : Fresh cfg l node addrs lookup time) (hsub : l ⊆ l') :
    Fresh cfg l' node addrs lookup time := by
  rcases h with hown | ⟨e, he, hrest⟩
  · exact .inl hown
  · exact .inr ⟨e, hsub he, hrest⟩

theorem filterAddrs_allowed (h : ip ∈ filterAddrs addrs family cfg.denylist) : Allowed cfg family ip := by
  simp only [filterAddrs, List.mem_filter, decide_eq_true_eq] at h
  obtain ⟨⟨-, hfamily⟩, hdeny⟩ := h
  refine ⟨hdeny, ?_, ?_⟩
  · rintro rfl
    simpa using hfamily
  · rintro rfl
    simpa using hfamily

/-- A call writes nothing, or the payload of the addresses that pass the filter. -/
theorem finish_safe (h : a.finish cfg before addrs = (value, after)) :
    Safe cfg { asked := a, addrs, lookup, time, before, after, value } := by
  refine ⟨filterAddrs addrs a.hints.aiFamily cfg.denylist, ?_, fun ip hip => filterAddrs_allowed hip⟩
  unfold Asked.finish at h
  generalize (if a.hints.aiSocktype = 0 then 1 else a.hints.aiSocktype) = socktype at h
  unfold marshalAndReturn at h
  simp only [marshalAddrinfoIntoVec_head] at h
  split at h
  · cases h
    exact .nothing rfl
  · split at h
    · cases h
      exact .nothing rfl
    · split at h
      · cases h
        exact .nothing rfl
      · rename_i hcopy
        split at h
        · cases h
          exact .payload _ _ hcopy
        · rename_i hhead
          cases h
          exact .whole _ _ _ hcopy hhead

-- ---------------------------------------------------------------------------
-- The size of the cache
-- ---------------------------------------------------------------------------

theorem evictOldest_length (h : cache.entries.length ≤ MAX_CACHE_ENTRIES) :
    (evictOldest cache).entries.length < MAX_CACHE_ENTRIES := by
  unfold evictOldest
  split
  · rename_i hfull
    cases ho : cache.entries.argmin fun e => e.2.inserted with
    | none =>
      rw [List.argmin_eq_none.mp ho] at hfull
      exact absurd hfull (by decide)
    | some e =>
      have hmem : e.1 ∈ cache.keys := List.mem_map_of_mem (List.argmin_mem ho)
      simp only [oldestKey, ho, Option.map_some]
      exact (HashMap.length_erase_lt hmem).trans_le h
  · rename_i hroom
    exact Nat.lt_of_not_le hroom

theorem cacheInsert_length (h : cache.entries.length ≤ MAX_CACHE_ENTRIES) :
    (cacheInsert cache node addrs now).entries.length ≤ MAX_CACHE_ENTRIES :=
  (HashMap.length_insert_le ..).trans (evictOldest_length h)

theorem get?_evictOldest (h : (evictOldest cache).get? node = some e) : cache.get? node = some e := by
  unfold evictOldest at h
  split at h
  · split at h
    · rw [HashMap.get?_erase] at h
      split at h
      · cases h
      · exact h
    · exact h
  · exact h

theorem get?_cacheInsert (h : (cacheInsert cache node addrs now).get? node' = some e) :
    (node' = node ∧ e = { addrs, inserted := now }) ∨ cache.get? node' = some e := by
  rw [cacheInsert, HashMap.get?_insert] at h
  split at h
  · rename_i heq
    cases h
    exact .inl ⟨heq, rfl⟩
  · exact .inr (get?_evictOldest h)

-- ---------------------------------------------------------------------------
-- Every interleaving
-- ---------------------------------------------------------------------------

/-- An answer that a fiber is about to hand out is fresh. -/
def Stage.Fresh (cfg : ResolverConfig) (insertions : List Insertion) : Stage → Prop
  | .ready a addrs lookup time => Resolver.Fresh cfg insertions a.node addrs lookup time
  | _ => True

structure Inv (cfg : ResolverConfig) (s : Resolvers) : Prop where
  size : s.cache.entries.length ≤ MAX_CACHE_ENTRIES
  recorded : ∀ node e, s.cache.get? node = some e → ⟨node, e.addrs, e.inserted⟩ ∈ s.insertions
  past : ∀ e ∈ s.insertions, e.time ≤ s.now
  stages : 0 < cfg.ttlMs → ∀ i, (s.fibers i).stage.Fresh cfg s.insertions
  safe : ∀ r ∈ s.returns, Safe cfg r
  fresh : 0 < cfg.ttlMs → ∀ r ∈ s.returns,
    Fresh cfg s.insertions r.asked.node r.addrs r.lookup r.time

theorem Inv.start (cfg : ResolverConfig) (memories : Nat → Option MemoryKind) :
    Inv cfg (.start memories) where
  size := Nat.zero_le _
  recorded node e h := by cases h
  past e he := by cases he
  stages _ i := trivial
  safe r hr := by cases hr
  fresh _ r hr := by cases hr

theorem Inv.setFiber (h : Inv cfg s) (i : Nat) (f : Fiber)
    (hf : 0 < cfg.ttlMs → f.stage.Fresh cfg s.insertions) : Inv cfg (s.setFiber i f) where
  size := h.size
  recorded := h.recorded
  past := h.past
  stages httl j := by
    simp only [Resolvers.setFiber, Function.update_apply]
    split
    · exact hf httl
    · exact h.stages httl j
  safe := h.safe
  fresh := h.fresh

theorem Inv.cached (h : Inv cfg s) (httl : 0 < cfg.ttlMs) (hc : cached cfg s.cache s.now node = some e) :
    Fresh cfg s.insertions node e.addrs none s.now := by
  obtain ⟨hget, hage⟩ := Option.filter_eq_some_iff.mp hc
  have hin := h.recorded node e hget
  have hne : cfg.ttlMs ≠ 0 := by
    rintro hz
    rw [hz] at httl
    exact absurd httl (by decide)
  simp only [hne, false_or, decide_eq_true_eq] at hage
  exact .inr ⟨_, hin, rfl, rfl, h.past _ hin, hage⟩

theorem Inv.call (h : Inv cfg s) (i : Nat) (r : Request) : Inv cfg (s.call cfg i r) := by
  unfold Resolvers.call
  split
  · exact h
  · split
    · rename_i e hc
      exact h.setFiber i _ fun httl => h.cached httl hc
    · exact h.setFiber i _ fun _ => trivial

theorem Inv.insert (h : Inv cfg s) (i : Nat) (a : Asked) (addrs : List IpAddr) :
    Inv cfg (s.insert i a addrs) where
  size := cacheInsert_length h.size
  recorded node e he := by
    rcases get?_cacheInsert he with ⟨rfl, rfl⟩ | hold
    · exact List.mem_cons_self
    · exact List.mem_cons_of_mem _ (h.recorded node e hold)
  past e he := by
    rcases List.mem_cons.mp he with rfl | he
    · exact le_refl _
    · exact h.past e he
  stages httl j := by
    simp only [Resolvers.insert, Resolvers.setStage, Resolvers.setFiber, Function.update_apply]
    split
    · exact .inl rfl
    · have hold := h.stages httl j
      revert hold
      cases (s.fibers j).stage with
      | ready a' addrs' lookup time => exact fun hold => Fresh.mono hold (List.subset_cons_self ..)
      | _ => exact id
  safe := h.safe
  fresh httl r hr := (h.fresh httl r hr).mono (List.subset_cons_self ..)

theorem Inv.finish (h : Inv cfg s) (hi : (s.fibers i).stage = .ready a addrs lookup time) :
    Inv cfg (s.finish cfg i a addrs lookup time) := by
  have hidle := h.setFiber i { memory := (a.finish cfg (s.fibers i).memory addrs).2, stage := .idle }
    fun _ => trivial
  refine { hidle with safe := fun r hr => ?_, fresh := fun httl r hr => ?_ }
  · rcases List.mem_cons.mp hr with rfl | hr
    · exact finish_safe rfl
    · exact h.safe r hr
  · rcases List.mem_cons.mp hr with rfl | hr
    · have hready := h.stages httl i
      rw [hi] at hready
      exact hready
    · exact h.fresh httl r hr

theorem Inv.next (h : Inv cfg s) (hs : s.next cfg act = some s') : Inv cfg s' := by
  cases act with
  | tick elapsed =>
    cases hs
    exact { h with past := fun e he => (h.past e he).trans (Nat.le_add_right ..) }
  | memory i m =>
    cases hs
    exact h.setFiber i _ fun httl => h.stages httl i
  | call i r =>
    simp only [Resolvers.next] at hs
    split at hs
    · cases hs
      exact h.call i r
    · cases hs
  | answer i said =>
    simp only [Resolvers.next] at hs
    split at hs
    · split at hs
      · cases hs
        exact h.setFiber i _ fun _ => trivial
      · cases hs
        exact h.setFiber i _ fun _ => trivial
    · cases hs
  | insert i =>
    simp only [Resolvers.next] at hs
    split at hs
    · cases hs
      exact h.insert i _ _
    · cases hs
  | finish i =>
    simp only [Resolvers.next] at hs
    split at hs
    · rename_i hi
      cases hs
      exact h.finish hi
    · cases hs

/-- For every configuration, every backend and every interleaving: what is marshalled is
of the family asked for and not on the denylist, the cache keeps its bound, and with a
lifetime an answer is the call's own or fresh. -/
theorem resolver_safe (cfg : ResolverConfig) (memories : Nat → Option MemoryKind)
    (h : Reaches (Resolvers.next cfg) (fun _ _ => True) (.start memories) s) :
    (∀ r ∈ s.returns, Safe cfg r) ∧ s.cache.entries.length ≤ MAX_CACHE_ENTRIES ∧
      (0 < cfg.ttlMs → ∀ r ∈ s.returns,
        Fresh cfg s.insertions r.asked.node r.addrs r.lookup r.time) := by
  have hinv : Inv cfg s := by
    apply h.invariant (Inv.start cfg memories)
    intro s a s' hinv _ hs
    exact hinv.next hs
  exact ⟨hinv.safe, hinv.size, hinv.fresh⟩

-- ---------------------------------------------------------------------------
-- Two fibers
-- ---------------------------------------------------------------------------

theorem next_hit (hidle : (s.fibers i).stage = .idle)
    (hread : readRequest (s.fibers i).memory r = .ok (node, hints, port))
    (hhit : cached cfg s.cache s.now node = some e) : s.next cfg (.call i r) = some (s.setStage i
      (.ready { node, hints, port, resPtrPtr := r.resPtrPtr } e.addrs none s.now)) := by
  simp only [Resolvers.next, hidle, Resolvers.call, hread, hhit]

theorem next_miss (hidle : (s.fibers i).stage = .idle)
    (hread : readRequest (s.fibers i).memory r = .ok (node, hints, port))
    (hmiss : cached cfg s.cache s.now node = none) : s.next cfg (.call i r) = some (s.setStage i
      (.looking { node, hints, port, resPtrPtr := r.resPtrPtr })) := by
  simp only [Resolvers.next, hidle, Resolvers.call, hread, hmiss]

def emptyName : Request := { nodePtr := 16, servicePtr := 0, hintsPtr := 0, resPtrPtr := 32 }

def emptyAsked : Asked := { node := "", hints := .none, port := 0, resPtrPtr := 32 }

theorem readRequest_emptyName {m : LinearMemory} (h : m.load 16 256 = some (List.replicate 256 0)) :
    readRequest (some (.owned m)) emptyName = .ok ("", Hints.none, 0) := by
  have hslice : guestSlice (some (.owned m)) (16 : Nat) 256 = .ok (List.replicate 256 0) := by
    have hload := guestSlice_of_load (k := 256) h (le_refl 256)
    rwa [List.take_of_length_le (by rw [List.length_replicate])] at hload
  have hnode : readNode (some (.owned m)) 16 = .ok "" := by
    unfold readNode guestStr
    rw [if_neg (by decide), show (UInt32.toNat 16) = 16 from rfl, hslice]
    decide
  simp only [readRequest, emptyName, hnode]
  rfl

def oneDenied : ResolverConfig :=
  { denylist := [.v4 #v[10, 0, 0, 2]], ttlMs := 60000, timeoutMs := 5000 }

def twoAddrs : List IpAddr := [.v4 #v[10, 0, 0, 3], .v4 #v[10, 0, 0, 2]]

theorem reaches_hit {memories : Nat → Option MemoryKind}
    (hread : ∀ i, readRequest (memories i) emptyName = .ok ("", Hints.none, 0)) :
    ∃ s, Reaches (Resolvers.next oneDenied) (fun _ _ => True) (.start memories) s ∧
      s.returns.map (fun r => (r.addrs, r.lookup)) = [(twoAddrs, none)] := by
  let s₁ := (Resolvers.start memories).setStage 0 (.looking emptyAsked)
  let s₂ := s₁.setStage 0 (.found emptyAsked twoAddrs)
  let s₃ := s₂.insert 0 emptyAsked twoAddrs
  have hcall : (Resolvers.start memories).next oneDenied (.call 0 emptyName) = some s₁ :=
    next_miss rfl (hread 0) rfl
  have hanswer : s₁.next oneDenied (.answer 0 (.found twoAddrs)) = some s₂ := rfl
  have hinsert : s₂.next oneDenied (.insert 0) = some s₃ := rfl
  have hentry : cached oneDenied (cacheInsert .empty "" twoAddrs 0) 0 "" =
      some { addrs := twoAddrs, inserted := 0 } := by decide
  have hhit := next_hit (s := s₃) (i := 1) rfl (hread 1) hentry
  have hfinish : (s₃.setStage 1 (.ready emptyAsked twoAddrs none s₃.now)).next oneDenied (.finish 1) =
      some _ := rfl
  refine ⟨_, .step (.step (.step (.step (.step .start trivial hcall) trivial hanswer) trivial hinsert)
    trivial hhit) trivial hfinish, ?_⟩
  rfl

theorem readRequest_zeroPage : readRequest (some (.owned .zeroPage)) emptyName = .ok ("", Hints.none, 0) :=
  readRequest_emptyName (LinearMemory.zeroPage_load (by decide))

/-- The denied address is left out of an answer that the cache gave. -/
theorem resolver_safe_hit : ∃ s,
    Reaches (Resolvers.next oneDenied) (fun _ _ => True) (.start fun _ => some (.owned .zeroPage)) s ∧
    s.returns.map (fun r => (r.addrs, r.lookup)) = [(twoAddrs, none)] ∧
    (∀ r ∈ s.returns, Safe oneDenied r) ∧ s.cache.entries.length ≤ MAX_CACHE_ENTRIES ∧
    ∀ r ∈ s.returns, Fresh oneDenied s.insertions r.asked.node r.addrs r.lookup r.time := by
  obtain ⟨s, hreach, hreturns⟩ := reaches_hit fun _ => readRequest_zeroPage
  obtain ⟨hsafe, hsize, hfresh⟩ := resolver_safe oneDenied _ hreach
  exact ⟨s, hreach, hreturns, hsafe, hsize, hfresh (by decide)⟩

end EdgeLibos.Resolver
