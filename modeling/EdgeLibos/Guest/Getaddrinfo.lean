import EdgeLibos.Sys.Resolver

/-!
# `getaddrinfo` in the guest

The guest's replacement for the C library's `getaddrinfo`. It copies its arguments to
the scratch area, makes the resolver call and copies the payload found there into a
list of its own. Pointers are 32-bit words, an access outside memory traps, and the
allocator of the C library is a parameter that keeps its state in linear memory.
-/

namespace EdgeLibos.Guest

open Lib Resolver

def EDGE_MARKER_ADDR : Nat := 4096
def EDGE_RESOLVER_SCRATCH : Nat := EDGE_MARKER_ADDR + 4096
def EDGE_RES_S_OFFSET : Nat := 0
def EDGE_NODE_OFFSET : Nat := 8
def EDGE_SVC_OFFSET : Nat := 280
def EDGE_HINTS_OFFSET : Nat := 352

def scratchAt (off : Nat) : UInt32 := UInt32.ofNat (EDGE_RESOLVER_SCRATCH + off)

/-- `calloc(1, size)`, which returns 0 when it fails, and `free`. -/
structure Libc where
  calloc : LinearMemory → UInt32 → UInt32 × LinearMemory
  free : LinearMemory → UInt32 → LinearMemory

/-- `struct edge_addrinfo`. -/
structure Addrinfo where
  aiFlags : UInt32
  aiFamily : UInt32
  aiSocktype : UInt32
  aiProtocol : UInt32
  aiAddrlen : UInt32
  aiAddr : UInt32
  aiCanonname : UInt32
  aiNext : UInt32
  deriving DecidableEq, Repr

namespace Addrinfo

def SIZE : UInt32 := 32

def ofBytes (bytes : List UInt8) : Addrinfo where
  aiFlags := wordAt bytes 0
  aiFamily := wordAt bytes 4
  aiSocktype := wordAt bytes 8
  aiProtocol := wordAt bytes 12
  aiAddrlen := wordAt bytes 16
  aiAddr := wordAt bytes 20
  aiCanonname := wordAt bytes 24
  aiNext := wordAt bytes 28

def toBytes (a : Addrinfo) : List UInt8 :=
  le32 a.aiFlags ++ le32 a.aiFamily ++ le32 a.aiSocktype ++ le32 a.aiProtocol ++
    le32 a.aiAddrlen ++ le32 a.aiAddr ++ le32 a.aiCanonname ++ le32 a.aiNext

def load (mem : LinearMemory) (ptr : UInt32) : Option Addrinfo :=
  (mem.load ptr.toNat SIZE.toNat).map ofBytes

def store (mem : LinearMemory) (ptr : UInt32) (a : Addrinfo) : Option LinearMemory :=
  mem.store ptr.toNat a.toBytes

end Addrinfo

-- ---------------------------------------------------------------------------
-- The request
-- ---------------------------------------------------------------------------

/-- `edge_copy_str` from its `n`-th byte on, with `room` bytes left of the capacity. -/
def edgeCopyStr (mem : LinearMemory) (dst src : UInt32) (n : Nat) :
    Nat → Option (Nat × LinearMemory)
  | 0 => some (n, mem)
  | 1 => do return (n, ← mem.store (dst + UInt32.ofNat n).toNat [0])
  | room + 2 => do
    let c ← mem.load (src + UInt32.ofNat n).toNat 1
    let mem ← mem.store (dst + UInt32.ofNat n).toNat c
    if c = [0] then return (n, mem)
    edgeCopyStr mem dst src (n + 1) (room + 1)

/-- A string argument copied to the scratch area; a null pointer has no bytes. -/
def copyArg (mem : LinearMemory) (off cap : Nat) (src : UInt32) : Option (Nat × LinearMemory) :=
  if src = 0 then some (0, mem) else edgeCopyStr mem (scratchAt off) src 0 cap

def copyHints (mem : LinearMemory) (hints : UInt32) : Option LinearMemory :=
  if hints = 0 then some mem
  else do
    let bytes ← mem.load hints.toNat Addrinfo.SIZE.toNat
    mem.store (scratchAt EDGE_HINTS_OFFSET).toNat bytes

/-- From the null check on the name and the service to the call. -/
def prepare (mem : LinearMemory) (node service hints : UInt32) : Option (Request × LinearMemory) := do
  let (nodeLen, mem) ← copyArg mem EDGE_NODE_OFFSET 257 node
  let (svcLen, mem) ← copyArg mem EDGE_SVC_OFFSET 65 service
  let mem ← copyHints mem hints
  return ({ nodePtr := if nodeLen > 0 then scratchAt EDGE_NODE_OFFSET else 0
            servicePtr := if svcLen > 0 then scratchAt EDGE_SVC_OFFSET else 0
            hintsPtr := if hints ≠ 0 then scratchAt EDGE_HINTS_OFFSET else 0
            resPtrPtr := scratchAt EDGE_RES_S_OFFSET }, mem)

/-- `edge_host_lookup`; the guest runs on in the memory the host leaves. -/
def edgeHostLookup (host : Backend) (mem : LinearMemory) (r : Request) : Int × LinearMemory :=
  let (rc, memory) := resolve host (some (.owned mem)) r
  (rc, (memory.map MemoryKind.mem).getD mem)

-- ---------------------------------------------------------------------------
-- The answer
-- ---------------------------------------------------------------------------

section
variable (libc : Libc)

/-- No list in memory is longer than `fuel := 2 ^ 32`; on a cyclic one the source
does not return. -/
def freeaddrinfo (mem : LinearMemory) (res : UInt32) : Nat → Option LinearMemory
  | 0 => none
  | fuel + 1 =>
    if res = 0 then some mem
    else do
      let a ← Addrinfo.load mem res
      let mem := libc.free mem a.aiAddr
      let mem := libc.free mem a.aiCanonname
      freeaddrinfo (libc.free mem res) a.aiNext fuel

/-- An error return, after the nodes built so far are given back. -/
def giveUp (code : Int) (mem : LinearMemory) (outHead : UInt32) : Option (Int × LinearMemory) := do
  let mem ← if outHead = 0 then some mem else freeaddrinfo libc mem outHead (2 ^ 32)
  return (code, mem)

/-- The bounds on the socket address of a node, in 32-bit arithmetic. -/
def addrRefused (cur : UInt32) (src : Addrinfo) : Bool :=
  src.aiAddrlen > 128 || cur + src.aiAddr > 4096 || src.aiAddr + src.aiAddrlen > 4096

def copyAddr (mem : LinearMemory) (cur dst : UInt32) (src node : Addrinfo) :
    Option (Except Int Unit × LinearMemory) :=
  if src.aiAddr = 0 ∨ src.aiAddrlen.toInt32 ≤ 0 then some (.ok (), mem)
  else if addrRefused cur src then some (.error EAI_SYSTEM, mem)
  else do
    let (ptr, mem) := libc.calloc mem src.aiAddrlen
    let mem ← Addrinfo.store mem dst { node with aiAddr := ptr }
    if ptr = 0 then return (.error EAI_MEMORY, mem)
    let bytes ← mem.load (scratchAt 0 + src.aiAddr).toNat src.aiAddrlen.toNat
    return (.ok (), ← mem.store ptr.toNat bytes)

def linkTail (mem : LinearMemory) (outTail dst : UInt32) : Option LinearMemory := do
  let tail ← Addrinfo.load mem outTail
  Addrinfo.store mem outTail { tail with aiNext := dst }

def collect (res : UInt32) (mem : LinearMemory) (cur outHead outTail : UInt32) :
    Nat → Option (Int × LinearMemory)
  | 0 => do return (0, ← mem.store res.toNat (le32 outHead))
  | count + 1 =>
    if cur = 0 then do return (0, ← mem.store res.toNat (le32 outHead))
    else if cur + Addrinfo.SIZE > 4096 then giveUp libc EAI_SYSTEM mem outHead
    else do
      let src ← Addrinfo.load mem (scratchAt 0 + cur)
      let (dst, mem) := libc.calloc mem Addrinfo.SIZE
      if dst = 0 then giveUp libc EAI_MEMORY mem outHead
      else
        let fresh ← Addrinfo.load mem dst
        let node := { src with aiAddr := fresh.aiAddr, aiCanonname := 0, aiNext := 0 }
        let mem ← Addrinfo.store mem dst node
        match ← copyAddr libc mem cur dst src node with
        | (.error code, mem) => giveUp libc code (libc.free mem dst) outHead
        | (.ok (), mem) =>
          if outHead = 0 then collect res mem src.aiNext dst dst count
          else
            let mem ← linkTail mem outTail dst
            collect res mem src.aiNext outHead dst count

/-- What follows the call: the host's code, or the list copied from its payload. -/
def answer (res : UInt32) (rc : Int) (mem : LinearMemory) : Option (Int × LinearMemory) :=
  if rc < 0 then some (rc, mem)
  else do
    let headOff := ofLe32 (← mem.load (scratchAt EDGE_RES_S_OFFSET).toNat 4)
    if headOff = 0 then return (EAI_FAIL, mem)
    collect libc res mem headOff 0 0 rc.toNat

def getaddrinfo (host : Backend) (mem : LinearMemory) (node service hints res : UInt32) :
    Option (Int × LinearMemory) :=
  if res = 0 then some (EAI_FAIL, mem)
  else do
    let mem ← mem.store res.toNat (le32 0)
    if node = 0 ∧ service = 0 then return (EAI_NONAME, mem)
    let (r, mem) ← prepare mem node service hints
    let (rc, mem) := edgeHostLookup host mem r
    answer libc res rc mem

end

-- ---------------------------------------------------------------------------
-- What the two sides should do together
-- ---------------------------------------------------------------------------

/-- A node of the list a caller of `getaddrinfo` walks. -/
structure Node where
  aiFlags : Int32
  aiFamily : Int32
  aiSocktype : Int32
  aiProtocol : Int32
  addr : List UInt8
  deriving DecidableEq, Repr

def NodeAt (mem : LinearMemory) (a : Addrinfo) (n : Node) : Prop :=
  a.aiFlags = n.aiFlags.toUInt32 ∧ a.aiFamily = n.aiFamily.toUInt32 ∧
    a.aiSocktype = n.aiSocktype.toUInt32 ∧ a.aiProtocol = n.aiProtocol.toUInt32 ∧
    a.aiAddrlen.toNat = n.addr.length ∧ mem.load a.aiAddr.toNat n.addr.length = some n.addr

def ListAt (mem : LinearMemory) (ptr : UInt32) : List Node → Prop
  | [] => ptr = 0
  | n :: rest => ptr ≠ 0 ∧ ∃ a, Addrinfo.load mem ptr = some a ∧ NodeAt mem a n ∧
      ListAt mem a.aiNext rest

def outSocktype (h : Hints) : Int32 := if h.aiSocktype = 0 then 1 else h.aiSocktype

def marshalled (h : Hints) (port : UInt16) (ip : IpAddr) : Node where
  aiFlags := h.aiFlags
  aiFamily := aiFamily ip
  aiSocktype := outSocktype h
  aiProtocol := h.aiProtocol
  addr := sockaddr port ip ++ List.replicate (sockaddrSize ip - (sockaddr port ip).length) 0

/-- The call gets to the host, which accepts the hints and the service, writes its
payload for `addrs` and returns the number of nodes in it. -/
def HostAnswers (host : Backend) (mem : LinearMemory) (node service hints res : UInt32)
    (h : Hints) (port : UInt16) (addrs : List IpAddr) : Prop :=
  res ≠ 0 ∧ (node ≠ 0 ∨ service ≠ 0) ∧ ∃ mem₀ r mem₁ name,
    mem.store res.toNat (le32 0) = some mem₀ ∧
    prepare mem₀ node service hints = some (r, mem₁) ∧
    readRequest (some (.owned mem₁)) r = .ok (name, h, port) ∧
    host.lookup name = .ok addrs ∧
    (marshalAndReturn (some (.owned mem₁)) addrs h.aiFlags h.aiFamily (outSocktype h) port
      h.aiProtocol host.denylist r.resPtrPtr).1 =
      (filterAddrs addrs h.aiFamily host.denylist).length

/-- `getaddrinfo` returns 0 and leaves a list of these nodes at `*res`. -/
def Delivers (libc : Libc) (host : Backend) (mem : LinearMemory)
    (node service hints res : UInt32) (nodes : List Node) : Prop :=
  ∃ mem' head, getaddrinfo libc host mem node service hints res = some (0, mem') ∧
    mem'.load res.toNat 4 = some (le32 head) ∧ ListAt mem' head nodes

theorem prepare_resPtrPtr (hp : prepare mem node service hints = some (r, mem')) :
    r.resPtrPtr = scratchAt EDGE_RES_S_OFFSET := by
  unfold prepare at hp
  obtain ⟨_, -, hp⟩ := Option.bind_eq_some_iff.mp hp
  obtain ⟨_, -, hp⟩ := Option.bind_eq_some_iff.mp hp
  obtain ⟨_, -, hp⟩ := Option.bind_eq_some_iff.mp hp
  cases hp
  rfl

/-- The offset 0 of the first node is what the guest takes for no answer. -/
theorem answer_of_head_zero (libc : Libc) (res : UInt32) (hn : 0 ≤ n)
    (hload : mem.load (scratchAt EDGE_RES_S_OFFSET).toNat 4 = some (le32 0)) :
    answer libc res n mem = some (EAI_FAIL, mem) := by
  unfold answer
  rw [if_neg (not_lt.mpr hn), hload]
  rfl

theorem getaddrinfo_of_hostAnswers (libc : Libc)
    (ha : HostAnswers host mem node service hints res h port addrs) :
    ∃ mem', getaddrinfo libc host mem node service hints res = some (EAI_FAIL, mem') := by
  obtain ⟨hres, hargs, mem₀, r, mem₁, name, hstore, hp, hread, hlookup, hcount⟩ := ha
  generalize hm : marshalAndReturn (some (.owned mem₁)) addrs h.aiFlags h.aiFamily (outSocktype h)
    port h.aiProtocol host.denylist r.resPtrPtr = out at hcount
  obtain ⟨n, memory⟩ := out
  have hn : 0 ≤ n := hcount.symm.le.trans' (Int.natCast_nonneg _)
  obtain ⟨mem₂, rfl, hload⟩ := marshalAndReturn_ok hm hn
  have hresolve : resolve host (some (.owned mem₁)) r = (n, some (.owned mem₂)) := by
    unfold resolve
    rw [hread]
    simp only [hlookup]
    exact hm
  have hlook : edgeHostLookup host mem₁ r = (n, mem₂) := by
    unfold edgeHostLookup
    rw [hresolve]
    rfl
  have hnull : ¬ (node = 0 ∧ service = 0) := fun hz => hargs.elim (· hz.1) (· hz.2)
  rw [prepare_resPtrPtr hp] at hload
  refine ⟨mem₂, ?_⟩
  unfold getaddrinfo
  simp only [hres, if_false, hstore, hnull, hp, hlook, bind, Option.bind]
  exact answer_of_head_zero libc res hn hload

/-- However the host answers, the guest reports a failure. -/
theorem getaddrinfo_never_delivers (libc : Libc)
    (ha : HostAnswers host mem node service hints res h port addrs) :
    (∃ mem', getaddrinfo libc host mem node service hints res = some (EAI_FAIL, mem')) ∧
      ¬ Delivers libc host mem node service hints res
        ((filterAddrs addrs h.aiFamily host.denylist).map (marshalled h port)) := by
  obtain ⟨mem', hfail⟩ := getaddrinfo_of_hostAnswers libc ha
  refine ⟨⟨mem', hfail⟩, ?_⟩
  rintro ⟨mem'', head, hok, -⟩
  rw [hfail] at hok
  cases hok

-- ---------------------------------------------------------------------------
-- A name that resolves
-- ---------------------------------------------------------------------------

theorem page_le_top : 1 ≤ 65536 := by decide

def zeroes : LinearMemory := .filled 0 1 1 LinearMemory.one_page_fits page_le_top

theorem zeroes_size : zeroes.size = 65536 := LinearMemory.filled_size

def namedMemory : LinearMemory :=
  zeroes.write 1024 [100] (by rw [zeroes_size]; decide)

def oneAddress : Backend := { lookup := fun _ => .ok [.v4 #v[10, 0, 0, 1]], denylist := [] }

theorem zeroes_load (h : ptr < 65536) : zeroes.load ptr 1 = some [0] := by
  rw [LinearMemory.load_some (by rw [zeroes_size]; exact h), zeroes, LinearMemory.filled,
    List.drop_replicate, List.take_replicate, min_eq_left]
  · rfl
  · rw [Nat.one_mul]
    exact Nat.le_sub_of_add_le (by rw [Nat.add_comm]; exact h)

theorem store_some {m : LinearMemory} (h : ptr + new.length ≤ m.size) :
    m.store ptr new = some (m.write ptr new h) := dif_pos h

theorem copyArg_named {m : LinearMemory} (hsize : m.size = 65536) (h0 : m.load 1024 1 = some [100])
    (h1 : m.load 1025 1 = some [0]) :
    ∃ m', copyArg m EDGE_NODE_OFFSET 257 1024 = some (1, m') ∧ m'.size = 65536 ∧
      m'.load 8200 1 = some [100] ∧ m'.load 8201 1 = some [0] := by
  have hc : 8200 + ([100] : List UInt8).length ≤ m.size := by rw [hsize]; decide
  have h1' : (m.write 8200 [100] hc).load 1025 1 = some [0] := by
    rw [LinearMemory.load_write_of_apart hc (.inl (by decide)), h1]
  have hc' : 8201 + ([0] : List UInt8).length ≤ (m.write 8200 [100] hc).size := by
    rw [LinearMemory.write_size, hsize]
    decide
  refine ⟨(m.write 8200 [100] hc).write 8201 [0] hc', ?_, ?_, ?_, ?_⟩
  · have hsrc : (1024 + UInt32.ofNat 0).toNat = 1024 := by decide
    have hsrc' : (1024 + UInt32.ofNat 1).toNat = 1025 := by decide
    have hdst : (scratchAt EDGE_NODE_OFFSET + UInt32.ofNat 0).toNat = 8200 := by decide
    have hdst' : (scratchAt EDGE_NODE_OFFSET + UInt32.ofNat 1).toNat = 8201 := by decide
    rw [copyArg, if_neg (by decide), edgeCopyStr, hsrc, hdst, h0]
    simp only [bind, Option.bind, store_some hc]
    rw [if_neg (by decide), edgeCopyStr, hsrc', hdst', h1']
    simp only [bind, Option.bind, store_some hc', if_true]
    rfl
  · rw [LinearMemory.write_size, LinearMemory.write_size, hsize]
  · rw [LinearMemory.load_write_of_apart hc' (.inl (by decide))]
    exact LinearMemory.load_write hc
  · exact LinearMemory.load_write hc'

theorem load_one_iff {m : LinearMemory} (h : ptr < m.size) :
    m.load ptr 1 = some [b] ↔ m.data[ptr]? = some b := by
  rw [LinearMemory.load_some h]
  have hlen : ptr < m.data.length := h
  rw [List.drop_eq_getElem_cons hlen, List.getElem?_eq_getElem hlen, List.take_succ_cons,
    List.take_zero, Option.some.injEq, Option.some.injEq, List.cons.injEq, and_iff_left rfl]

theorem guestStr_named {m : LinearMemory} (hsize : m.size = 65536)
    (h0 : m.load 8200 1 = some [100]) (h1 : m.load 8201 1 = some [0]) :
    guestStr (some (.owned m)) (8200 : Nat) 256 = .ok "d" := by
  obtain ⟨hlt0, hd0⟩ := List.getElem?_eq_some_iff.mp
    ((load_one_iff (by rw [hsize]; decide)).mp h0)
  obtain ⟨hlt1, hd1⟩ := List.getElem?_eq_some_iff.mp
    ((load_one_iff (by rw [hsize]; decide)).mp h1)
  have hbytes : ((m.data.drop 8200).take 256).takeWhile (· ≠ 0) = [100] := by
    rw [List.drop_eq_getElem_cons hlt0, List.drop_eq_getElem_cons hlt1, hd0, hd1]
    rfl
  have hslice : guestSlice (some (.owned m)) (8200 : Nat) 256 =
      .ok ((m.data.drop 8200).take 256) := by
    rw [guestSlice, if_neg (by decide)]
    simp only [ownedOf]
    rw [if_pos (by rw [hsize]; decide)]
    rfl
  rw [guestStr, hslice]
  simp only
  rw [hbytes]
  rfl

theorem marshalAndReturn_one {m : LinearMemory} (hsize : m.size = 65536) :
    (marshalAndReturn (some (.owned m)) [.v4 #v[10, 0, 0, 1]] 0 0 1 0 0 [] (scratchAt 0)).1 = 1 := by
  have hbytes : (marshalAddrinfoIntoVec 0 1 0 0 [.v4 #v[10, 0, 0, 1]]).1.length = 48 := by decide
  have hcopy (mem : LinearMemory) (new : List UInt8) (hs : mem.size = 65536)
      (hn : new.length ≤ 48) : ∃ mem', mem'.size = 65536 ∧
        guestCopy (some (.owned mem)) (8192 : Nat) new.length new = .ok (some (.owned mem')) := by
    refine ⟨mem.write 8192 new (by omega), by rw [LinearMemory.write_size, hs], ?_⟩
    rw [guestCopy, if_neg (by omega)]
    simp only [ownedOf]
    rw [dif_pos ⟨by rw [hs]; omega, by omega⟩]
    rfl
  obtain ⟨m₁, hs₁, h₁⟩ := hcopy m _ hsize hbytes.le
  obtain ⟨m₂, -, h₂⟩ := hcopy m₁ (le32 0) hs₁ (by decide)
  have hhead : guestCopy (some (.owned m₁)) (8192 : Nat) 4 (le32 0) = .ok (some (.owned m₂)) := h₂
  have hfilter : filterAddrs [.v4 #v[10, 0, 0, 1]] 0 [] = [.v4 #v[10, 0, 0, 1]] := by decide
  unfold marshalAndReturn
  simp only [hfilter, marshalAddrinfoIntoVec_head]
  rw [if_neg (by decide), if_neg (by rw [hbytes]; decide)]
  simp only [RESOLVER_SCRATCH_BASE, h₁]
  rw [show ((scratchAt 0).toNat : Int) = (8192 : Nat) from by decide]
  rw [hhead]
  rfl

theorem hostAnswers_named :
    HostAnswers oneAddress namedMemory 1024 0 0 512 .none 0 [.v4 #v[10, 0, 0, 1]] := by
  have hsize : namedMemory.size = 65536 := by rw [namedMemory, LinearMemory.write_size, zeroes_size]
  have hc : 512 + (le32 0).length ≤ namedMemory.size := by rw [hsize]; decide
  have h0 : (namedMemory.write 512 (le32 0) hc).load 1024 1 = some [100] := by
    rw [LinearMemory.load_write_of_apart hc (.inr (by decide))]
    exact LinearMemory.load_write _
  have h1 : (namedMemory.write 512 (le32 0) hc).load 1025 1 = some [0] := by
    rw [LinearMemory.load_write_of_apart hc (.inr (by decide)), namedMemory,
      LinearMemory.load_write_of_apart _ (.inr (by decide)), zeroes_load (by decide)]
  obtain ⟨m, hcopy, hs, hd0, hd1⟩ :=
    copyArg_named (by rw [LinearMemory.write_size, hsize]) h0 h1
  refine ⟨by decide, .inl (by decide), _, ⟨scratchAt EDGE_NODE_OFFSET, 0, 0, scratchAt 0⟩, m, "d",
    store_some hc, ?_, ?_, rfl, ?_⟩
  · unfold prepare
    rw [hcopy]
    rfl
  · have hnode : readNode (some (.owned m)) (scratchAt EDGE_NODE_OFFSET) = .ok "d" := by
      rw [readNode, if_neg (by decide),
        show ((scratchAt EDGE_NODE_OFFSET).toNat : Int) = (8200 : Nat) from by decide,
        guestStr_named hs hd0 hd1]
    unfold readRequest
    simp only [hnode]
    rfl
  · exact marshalAndReturn_one hs

def bumpLibc : Libc where
  calloc mem size :=
    match mem.load 4 4 with
    | none => (0, mem)
    | some word =>
      let ptr := max (ofLe32 word) 32768
      match mem.store 4 (le32 (ptr + size)) with
      | none => (0, mem)
      | some mem =>
        match mem.store ptr.toNat (List.replicate size.toNat 0) with
        | none => (0, mem)
        | some mem => (ptr, mem)
  free mem _ := mem

theorem getaddrinfo_never_delivers_named :
    (∃ mem', getaddrinfo bumpLibc oneAddress namedMemory 1024 0 0 512 = some (EAI_FAIL, mem')) ∧
      ¬ Delivers bumpLibc oneAddress namedMemory 1024 0 0 512
        ((filterAddrs [.v4 #v[10, 0, 0, 1]] 0 []).map (marshalled .none 0)) :=
  getaddrinfo_never_delivers bumpLibc hostAnswers_named

/-- The host found an address for the name, and the guest returns `EAI_FAIL`. -/
theorem getaddrinfo_loses_answer :
    ¬ ∀ (libc : Libc) (host : Backend) (mem : LinearMemory) (node service hints res : UInt32)
        (h : Hints) (port : UInt16) (addrs : List IpAddr),
        HostAnswers host mem node service hints res h port addrs →
        Delivers libc host mem node service hints res
          ((filterAddrs addrs h.aiFamily host.denylist).map (marshalled h port)) := by
  intro hclaim
  obtain ⟨mem', hfail⟩ := getaddrinfo_of_hostAnswers bumpLibc hostAnswers_named
  obtain ⟨mem'', head, hok, -⟩ := hclaim bumpLibc _ _ _ _ _ _ _ _ _ hostAnswers_named
  rw [hfail] at hok
  cases hok

end EdgeLibos.Guest
