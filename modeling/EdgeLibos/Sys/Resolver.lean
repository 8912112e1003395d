import EdgeLibos.Lib.ParseInt
import EdgeLibos.Lib.Words
import EdgeLibos.Memory

/-!
# The resolver call

`NR_RESOLVE` carries `getaddrinfo` to the host. The answer is a payload at a fixed
place in guest memory: for each address an `addrinfo` and its socket address, with
offsets from the start of the payload instead of pointers and the offset 0 after
the last node. What the cache or the backend answers for a name is a parameter,
and so is the denylist at that time.
-/

namespace EdgeLibos

open Errno Lib

inductive IpAddr
  | v4 (octets : Vector UInt8 4)
  | v6 (octets : Vector UInt8 16)
  deriving DecidableEq, Repr

namespace Resolver

def ADDRINFO_SIZE : Nat := 32
def SOCKADDR_IN_SIZE : Nat := 16
def SOCKADDR_IN6_SIZE : Nat := 28
def MAX_RESOLVER_SCRATCH_BYTES : Nat := 4096
def RESOLVER_SCRATCH_BASE : Nat := 8192

def AI_NUMERICHOST : Int32 := 0x0004
def AI_NUMERICSERV : Int32 := 0x0400

def EAI_BADFLAGS : Int := -1
def EAI_NONAME : Int := -2
def EAI_AGAIN : Int := -3
def EAI_FAIL : Int := -4
def EAI_FAMILY : Int := -6
def EAI_SOCKTYPE : Int := -7
def EAI_SERVICE : Int := -8
def EAI_MEMORY : Int := -10
def EAI_SYSTEM : Int := -11

-- ---------------------------------------------------------------------------
-- The payload
-- ---------------------------------------------------------------------------

def isIpv4 : IpAddr → Bool
  | .v4 _ => true
  | .v6 _ => false

def aiFamily (ip : IpAddr) : Int32 := if isIpv4 ip then 2 else 10

def sockaddrSize (ip : IpAddr) : Nat := if isIpv4 ip then SOCKADDR_IN_SIZE else SOCKADDR_IN6_SIZE

/-- An address, and where its node and its socket address start. -/
structure Placed where
  ip : IpAddr
  nodeOff : Nat
  sockOff : Nat

def place (cursor : Nat) : List IpAddr → List Placed
  | [] => []
  | ip :: rest =>
    { ip, nodeOff := cursor, sockOff := cursor + ADDRINFO_SIZE } ::
      place (cursor + ADDRINFO_SIZE + sockaddrSize ip) rest

def payloadSize (addrs : List IpAddr) : Nat := (addrs.map fun ip => ADDRINFO_SIZE + sockaddrSize ip).sum

section
variable (aiFlags aiSocktype aiProtocol : Int32) (port : UInt16)

def header (p : Placed) (aiNext : Nat) : List UInt8 :=
  le32 aiFlags.toUInt32 ++ le32 (aiFamily p.ip).toUInt32 ++ le32 aiSocktype.toUInt32 ++
    le32 aiProtocol.toUInt32 ++ le32 (UInt32.ofNat (sockaddrSize p.ip)) ++
    le32 (UInt32.ofNat p.sockOff) ++ le32 0 ++ le32 (UInt32.ofNat aiNext)

def writeHeaders : List Placed → List UInt8 → List UInt8
  | [], out => out
  | p :: rest, out =>
    let aiNext := (rest.head?.map Placed.nodeOff).getD 0
    writeHeaders rest (LinearMemory.splice p.nodeOff (header aiFlags aiSocktype aiProtocol p aiNext) out)

def sockaddr : IpAddr → List UInt8
  | .v4 octets => le16 2 ++ be16 port ++ octets.toList
  | .v6 octets => le16 10 ++ be16 port ++ List.replicate 4 0 ++ octets.toList ++ List.replicate 4 0

def writeSockaddrs : List Placed → List UInt8 → List UInt8
  | [], out => out
  | p :: rest, out => writeSockaddrs rest (LinearMemory.splice p.sockOff (sockaddr port p.ip) out)

def marshalAddrinfoIntoVec (addrs : List IpAddr) : List UInt8 × UInt32 :=
  match place 0 addrs with
  | [] => ([], 0)
  | first :: rest =>
    let out := List.replicate (payloadSize addrs) 0
    let out := writeHeaders aiFlags aiSocktype aiProtocol (first :: rest) out
    let out := writeSockaddrs port (first :: rest) out
    (out, UInt32.ofNat first.nodeOff)

end

def filterAddrs (addrs : List IpAddr) (family : Int32) (denylist : List IpAddr) : List IpAddr :=
  let ofFamily := addrs.filter fun ip =>
    if family = 2 then isIpv4 ip else if family = 10 then !isIpv4 ip else true
  ofFamily.filter fun ip => ip ∉ denylist

/-- The payload goes to the fixed place, the offset of its first node to the slot
the guest named, and the number of nodes is returned. -/
def marshalAndReturn (memory : Option MemoryKind) (addrs : List IpAddr)
    (aiFlags family aiSocktype : Int32) (port : UInt16) (aiProtocol : Int32)
    (denylist : List IpAddr) (resPtrPtr : UInt32) : Int × Option MemoryKind :=
  let filtered := filterAddrs addrs family denylist
  if filtered.isEmpty then (EAI_NONAME, memory)
  else
    let (bytes, headOff) := marshalAddrinfoIntoVec aiFlags aiSocktype aiProtocol port filtered
    if bytes.length > MAX_RESOLVER_SCRATCH_BYTES then (EAI_MEMORY, memory)
    else
      match guestCopy memory RESOLVER_SCRATCH_BASE bytes.length bytes with
      | .error _ => (EAI_SYSTEM, memory)
      | .ok memory =>
        match guestCopy memory resPtrPtr.toNat 4 (le32 headOff) with
        | .error _ => (EAI_SYSTEM, memory)
        | .ok memory => (filtered.length, memory)

-- ---------------------------------------------------------------------------
-- The call
-- ---------------------------------------------------------------------------

structure Hints where
  aiFlags : Int32
  aiFamily : Int32
  aiSocktype : Int32
  aiProtocol : Int32
  deriving DecidableEq, Repr

def Hints.none : Hints := { aiFlags := 0, aiFamily := 0, aiSocktype := 0, aiProtocol := 0 }

def wordAt (bytes : List UInt8) (off : Nat) : UInt32 := ofLe32 ((bytes.drop off).take 4)

def Hints.ofBytes (bytes : List UInt8) : Hints where
  aiFlags := (wordAt bytes 0).toInt32
  aiFamily := (wordAt bytes 4).toInt32
  aiSocktype := (wordAt bytes 8).toInt32
  aiProtocol := (wordAt bytes 12).toInt32

/-- The code a refused hints structure is answered with. -/
def Hints.refused (h : Hints) : Option Int :=
  if h.aiFlags &&& (AI_NUMERICHOST ||| AI_NUMERICSERV) ≠ 0 then some EAI_BADFLAGS
  else if h.aiFamily ≠ 0 ∧ h.aiFamily ≠ 2 ∧ h.aiFamily ≠ 10 then some EAI_FAMILY
  else if h.aiSocktype < 0 ∨ 2 < h.aiSocktype then some EAI_SOCKTYPE
  else Option.none

def readHints (memory : Option MemoryKind) (hintsPtr : UInt32) : Except Int Hints :=
  if hintsPtr = 0 then .ok .none
  else
    match guestSlice memory hintsPtr.toNat ADDRINFO_SIZE with
    | .error _ => .error EAI_SYSTEM
    | .ok bytes =>
      match (Hints.ofBytes bytes).refused with
      | some code => .error code
      | Option.none => .ok (.ofBytes bytes)

/-- `str::parse::<u16>`, whose errors are all one here. -/
def parseU16 (s : String) : Option UInt16 := (Lib.parseUnsigned (2 ^ 16 - 1) s.toList).toOption.map UInt16.ofNat

def readPort (memory : Option MemoryKind) (servicePtr : UInt32) : Except Int UInt16 :=
  if servicePtr = 0 then .ok 0
  else
    match guestStr memory servicePtr.toNat 64 with
    | .error _ => .error EAI_SYSTEM
    | .ok svc =>
      match parseU16 svc with
      | some port => .ok port
      | none => .error EAI_SERVICE

def readNode (memory : Option MemoryKind) (nodePtr : UInt32) : Except Int String :=
  if nodePtr = 0 then .ok ""
  else
    match guestStr memory nodePtr.toNat 256 with
    | .error _ => .error EAI_SYSTEM
    | .ok node => .ok node

/-- The arguments of the call; the two lengths are not looked at. -/
structure Request where
  nodePtr : UInt32
  servicePtr : UInt32
  hintsPtr : UInt32
  resPtrPtr : UInt32
  deriving DecidableEq, Repr

/-- `lookup` is what the cache or the backend answers, or the code of its failure. -/
structure Backend where
  lookup : String → Except Int (List IpAddr)
  denylist : List IpAddr

def readRequest (memory : Option MemoryKind) (r : Request) :
    Except Int (String × Hints × UInt16) := do
  if r.nodePtr = 0 ∧ r.servicePtr = 0 then throw EAI_NONAME
  let node ← readNode memory r.nodePtr
  let hints ← readHints memory r.hintsPtr
  let port ← readPort memory r.servicePtr
  return (node, hints, port)

def resolve (host : Backend) (memory : Option MemoryKind) (r : Request) : Int × Option MemoryKind :=
  match readRequest memory r with
  | .error code => (code, memory)
  | .ok (node, hints, port) =>
    match host.lookup node with
    | .error code => (code, memory)
    | .ok addrs =>
      let outSocktype := if hints.aiSocktype = 0 then 1 else hints.aiSocktype
      marshalAndReturn memory addrs hints.aiFlags hints.aiFamily outSocktype port
        hints.aiProtocol host.denylist r.resPtrPtr

-- ---------------------------------------------------------------------------
-- The word the guest's slot is left with
-- ---------------------------------------------------------------------------

theorem marshalAddrinfoIntoVec_head :
    (marshalAddrinfoIntoVec aiFlags aiSocktype aiProtocol port addrs).2 = 0 := by
  cases addrs with
  | nil => rfl
  | cons ip rest => rfl

theorem guestCopy_ok (h : guestCopy memory ptr len new = .ok memory') :
    ∃ mem mem', memory = some (.owned mem) ∧ memory' = some (.owned mem') ∧
      mem'.load ptr.toNat new.length = some new := by
  unfold guestCopy at h
  split at h
  · cases h
  · cases hm : ownedOf memory with
    | error e =>
      rw [hm] at h
      cases h
    | ok mem =>
      simp only [hm] at h
      split at h
      · cases h
        exact ⟨mem, _, ownedOf_ok hm, rfl, LinearMemory.load_write _⟩
      · cases h

theorem marshalAndReturn_ok {resPtrPtr : UInt32}
    (h : marshalAndReturn memory addrs aiFlags family aiSocktype port aiProtocol denylist resPtrPtr =
      (n, memory')) (hn : 0 ≤ n) :
    ∃ mem, memory' = some (.owned mem) ∧ mem.load resPtrPtr.toNat 4 = some (le32 0) := by
  unfold marshalAndReturn at h
  simp only [marshalAddrinfoIntoVec_head] at h
  split at h
  · cases h
    exact absurd hn (by decide)
  · split at h
    · cases h
      exact absurd hn (by decide)
    · split at h
      · cases h
        exact absurd hn (by decide)
      · split at h
        · cases h
          exact absurd hn (by decide)
        · rename_i hcopy
          cases h
          obtain ⟨_, mem, -, rfl, hload⟩ := guestCopy_ok hcopy
          exact ⟨mem, rfl, hload⟩

end Resolver

end EdgeLibos
