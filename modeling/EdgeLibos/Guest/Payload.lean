import EdgeLibos.Guest.Getaddrinfo
import EdgeLibos.Lib.Spans
import EdgeLibos.Sys.SockAddrs

/-!
# The payload of the resolver, read back

A reader of the payload starts at the offset it is told and follows `ai_next`. The three
passes that write it leave each node and its socket address where the first pass put them,
one after the other, so the reader finds the addresses in their order.
-/

namespace EdgeLibos.Guest.Payload

open Lib Resolver
open LinearMemory (splice)
open Paths (be16At)

-- ---------------------------------------------------------------------------
-- The reader
-- ---------------------------------------------------------------------------

structure Visited where
  off : Nat
  info : Addrinfo
  addr : List UInt8

def visit (out : List UInt8) (off : Nat) : Option Visited :=
  let info := Addrinfo.ofBytes ((out.drop off).take ADDRINFO_SIZE)
  if off + ADDRINFO_SIZE ≤ out.length ∧ info.aiAddr.toNat + info.aiAddrlen.toNat ≤ out.length then
    some { off, info, addr := (out.drop info.aiAddr.toNat).take info.aiAddrlen.toNat }
  else none

def walk (out : List UInt8) : Nat → Nat → Option (List Visited)
  | 0, _ => none
  | fuel + 1, off => do
    let v ← visit out off
    if v.info.aiNext = 0 then some [v]
    else
      let rest ← walk out fuel v.info.aiNext.toNat
      some (v :: rest)

/-- The address and the port in a socket address; the port is in network byte order. -/
def decodeAddr (bytes : List UInt8) : Option (IpAddr × UInt16) :=
  if leValue (bytes.take 2) = 2 ∧ bytes.length = SOCKADDR_IN_SIZE then
    some (.v4 (.ofFn fun i => bytes.getD (4 + i) 0), be16At bytes 2)
  else if leValue (bytes.take 2) = 10 ∧ bytes.length = SOCKADDR_IN6_SIZE then
    some (.v6 (.ofFn fun i => bytes.getD (8 + i) 0), be16At bytes 2)
  else none

def Visited.spans (v : Visited) : List Span :=
  [(v.off, ADDRINFO_SIZE), (v.info.aiAddr.toNat, v.info.aiAddrlen.toNat)]

structure Decodes (aiFlags aiSocktype aiProtocol : Int32) (port : UInt16) (ip : IpAddr) (v : Visited) : Prop where
  flags : v.info.aiFlags = aiFlags.toUInt32
  family : v.info.aiFamily = (aiFamily ip).toUInt32
  socktype : v.info.aiSocktype = aiSocktype.toUInt32
  protocol : v.info.aiProtocol = aiProtocol.toUInt32
  addrlen : v.info.aiAddrlen.toNat = sockaddrSize ip
  addr : decodeAddr v.addr = some (ip, port)

-- ---------------------------------------------------------------------------
-- Socket addresses
-- ---------------------------------------------------------------------------

def padded (port : UInt16) (ip : IpAddr) : List UInt8 :=
  sockaddr port ip ++ List.replicate (sockaddrSize ip - (sockaddr port ip).length) 0

theorem sockaddr_length_le (port : UInt16) (ip : IpAddr) : (sockaddr port ip).length ≤ sockaddrSize ip := by
  cases ip with
  | v4 octets => simp [sockaddr, sockaddrSize, isIpv4, SOCKADDR_IN_SIZE]
  | v6 octets => simp [sockaddr, sockaddrSize, isIpv4, SOCKADDR_IN6_SIZE]

@[simp] theorem padded_length (port : UInt16) (ip : IpAddr) : (padded port ip).length = sockaddrSize ip := by
  have hle := sockaddr_length_le port ip
  rw [padded, List.length_append, List.length_replicate, Nat.add_sub_cancel' hle]

theorem padded_v4 (port : UInt16) (octets : Vector UInt8 4) : padded port (.v4 octets) = Sys.sockaddrIn port octets := by
  simp [padded, sockaddr, sockaddrSize, isIpv4, SOCKADDR_IN_SIZE, Sys.sockaddrIn]
  rfl

theorem padded_v6 (port : UInt16) (octets : Vector UInt8 16) :
    padded port (.v6 octets) = Sys.SockAddrs.sockaddrIn6 port octets := by
  simp [padded, sockaddr, sockaddrSize, isIpv4, SOCKADDR_IN6_SIZE, Sys.SockAddrs.sockaddrIn6]
  rfl

theorem decodeAddr_padded (port : UInt16) (ip : IpAddr) : decodeAddr (padded port ip) = some (ip, port) := by
  cases ip with
  | v4 octets =>
    obtain ⟨hport, haddr⟩ := Sys.SockAddrs.sockaddrIn_parse port octets
    have hlength : (padded port (.v4 octets)).length = SOCKADDR_IN_SIZE := padded_length ..
    rw [padded_v4] at hlength ⊢
    have hfamily : leValue ((Sys.sockaddrIn port octets).take 2) = 2 := rfl
    rw [decodeAddr, if_pos ⟨hfamily, hlength⟩, hport, haddr]
  | v6 octets =>
    obtain ⟨hport, haddr⟩ := Sys.SockAddrs.sockaddrIn6_parse port octets
    have hlength : (padded port (.v6 octets)).length = SOCKADDR_IN6_SIZE := padded_length ..
    rw [padded_v6] at hlength ⊢
    have hfamily : leValue ((Sys.SockAddrs.sockaddrIn6 port octets).take 2) = 10 := rfl
    rw [decodeAddr, if_neg (by simp [hfamily]), if_pos ⟨hfamily, hlength⟩, hport, haddr]

-- ---------------------------------------------------------------------------
-- What the three passes leave
-- ---------------------------------------------------------------------------

section
variable (aiFlags aiSocktype aiProtocol : Int32) (port : UInt16)

/-- The `ai_next` of a node, where the addresses that are left are placed at the cursor. -/
def nextOff (cursor : Nat) (rest : List IpAddr) : Nat := ((place cursor rest).head?.map Placed.nodeOff).getD 0

/-- The nodes from the cursor on, each followed by its socket address. -/
def layout (body : IpAddr → List UInt8) (cursor : Nat) : List IpAddr → List UInt8
  | [] => []
  | ip :: rest =>
    let cursor' := cursor + ADDRINFO_SIZE + sockaddrSize ip
    header aiFlags aiSocktype aiProtocol { ip, nodeOff := cursor, sockOff := cursor + ADDRINFO_SIZE }
      (nextOff cursor' rest) ++ (body ip ++ layout body cursor' rest)

end

variable {aiFlags aiSocktype aiProtocol : Int32} {port : UInt16}

@[simp] theorem header_length (p : Placed) (aiNext : Nat) :
    (header aiFlags aiSocktype aiProtocol p aiNext).length = ADDRINFO_SIZE := by
  simp [header, ADDRINFO_SIZE]

theorem splice_append {pre old new post : List UInt8} (h : old.length = new.length) :
    splice pre.length new (pre ++ (old ++ post)) = pre ++ (new ++ post) := by
  have hdrop : (pre ++ (old ++ post)).drop (pre.length + new.length) = post := by
    rw [← List.append_assoc, List.drop_left' (by simp [h])]
  rw [splice, List.take_left, hdrop, List.append_assoc]

theorem payloadSize_cons (ip : IpAddr) (rest : List IpAddr) :
    payloadSize (ip :: rest) = ADDRINFO_SIZE + sockaddrSize ip + payloadSize rest := by
  simp [payloadSize]

theorem writeHeaders_cons (p : Placed) (cursor : Nat) (rest : List IpAddr) (out : List UInt8) :
    writeHeaders aiFlags aiSocktype aiProtocol (p :: place cursor rest) out =
      writeHeaders aiFlags aiSocktype aiProtocol (place cursor rest)
        (splice p.nodeOff (header aiFlags aiSocktype aiProtocol p (nextOff cursor rest)) out) := rfl

theorem writeHeaders_layout (pre : List UInt8) (addrs : List IpAddr) :
    writeHeaders aiFlags aiSocktype aiProtocol (place pre.length addrs)
        (pre ++ List.replicate (payloadSize addrs) 0) =
      pre ++ layout aiFlags aiSocktype aiProtocol (fun ip => List.replicate (sockaddrSize ip) 0) pre.length addrs := by
  induction addrs generalizing pre with
  | nil => simp [place, writeHeaders, layout, payloadSize]
  | cons ip rest ih =>
    have hzeros : List.replicate (payloadSize (ip :: rest)) (0 : UInt8) =
        List.replicate ADDRINFO_SIZE 0 ++
          (List.replicate (sockaddrSize ip) 0 ++ List.replicate (payloadSize rest) 0) := by
      rw [payloadSize_cons, List.replicate_add, List.replicate_add, List.append_assoc]
    rw [hzeros, place, writeHeaders_cons, splice_append (by simp), layout]
    have hrest := ih (pre ++ (header aiFlags aiSocktype aiProtocol
      { ip, nodeOff := pre.length, sockOff := pre.length + ADDRINFO_SIZE }
      (nextOff (pre.length + ADDRINFO_SIZE + sockaddrSize ip) rest) ++ List.replicate (sockaddrSize ip) 0))
    simpa [Nat.add_assoc] using hrest

theorem splice_sockaddr {pre head post : List UInt8} (h : head.length = ADDRINFO_SIZE) (port : UInt16) (ip : IpAddr) :
    splice (pre.length + ADDRINFO_SIZE) (sockaddr port ip)
        (pre ++ (head ++ (List.replicate (sockaddrSize ip) 0 ++ post))) =
      pre ++ (head ++ (padded port ip ++ post)) := by
  have hroom : List.replicate (sockaddrSize ip) (0 : UInt8) = List.replicate (sockaddr port ip).length 0 ++
      List.replicate (sockaddrSize ip - (sockaddr port ip).length) 0 := by
    rw [← List.replicate_add, Nat.add_sub_cancel' (sockaddr_length_le port ip)]
  have hsplice : splice (pre ++ head).length (sockaddr port ip) (pre ++ head ++
      (List.replicate (sockaddr port ip).length 0 ++
        (List.replicate (sockaddrSize ip - (sockaddr port ip).length) 0 ++ post))) = _ := splice_append (by simp)
  rw [hroom, List.append_assoc, padded, List.append_assoc]
  simpa only [List.length_append, h, List.append_assoc] using hsplice

theorem writeSockaddrs_layout (pre : List UInt8) (addrs : List IpAddr) :
    writeSockaddrs port (place pre.length addrs)
        (pre ++ layout aiFlags aiSocktype aiProtocol (fun ip => List.replicate (sockaddrSize ip) 0) pre.length addrs) =
      pre ++ layout aiFlags aiSocktype aiProtocol (padded port) pre.length addrs := by
  induction addrs generalizing pre with
  | nil => rfl
  | cons ip rest ih =>
    rw [place, writeSockaddrs, layout, layout]
    simp only
    rw [splice_sockaddr (header_length _ _)]
    have hrest := ih (pre ++ (header aiFlags aiSocktype aiProtocol
      { ip, nodeOff := pre.length, sockOff := pre.length + ADDRINFO_SIZE }
      (nextOff (pre.length + ADDRINFO_SIZE + sockaddrSize ip) rest) ++ padded port ip))
    simpa [Nat.add_assoc] using hrest

theorem layout_length (cursor : Nat) (addrs : List IpAddr) :
    (layout aiFlags aiSocktype aiProtocol (padded port) cursor addrs).length = payloadSize addrs := by
  induction addrs generalizing cursor with
  | nil => rfl
  | cons ip rest ih => simp [layout, ih, payloadSize_cons, Nat.add_assoc]

theorem marshalAddrinfoIntoVec_layout (aiFlags aiSocktype aiProtocol : Int32) (port : UInt16) (addrs : List IpAddr) :
    marshalAddrinfoIntoVec aiFlags aiSocktype aiProtocol port addrs =
      (layout aiFlags aiSocktype aiProtocol (padded port) 0 addrs, 0) := by
  have hheaders : writeHeaders aiFlags aiSocktype aiProtocol (place 0 addrs)
      (List.replicate (payloadSize addrs) 0) = _ := writeHeaders_layout [] addrs
  have hsockaddrs : writeSockaddrs port (place 0 addrs) (layout aiFlags aiSocktype aiProtocol _ 0 addrs) = _ :=
    writeSockaddrs_layout [] addrs
  cases addrs with
  | nil => rfl
  | cons ip rest =>
    show (writeSockaddrs port (place 0 (ip :: rest)) (writeHeaders aiFlags aiSocktype aiProtocol (place 0 (ip :: rest))
      (List.replicate (payloadSize (ip :: rest)) 0)), UInt32.ofNat 0) = _
    rw [hheaders]
    exact congrArg (·, 0) hsockaddrs

-- ---------------------------------------------------------------------------
-- Reading it
-- ---------------------------------------------------------------------------

theorem wordAt_words {words : List UInt32} (h : words[i]? = some v) : wordAt (words.flatMap le32) (4 * i) = v := by
  induction words generalizing i with
  | nil => cases h
  | cons w words ih =>
    rw [List.flatMap_cons]
    cases i with
    | zero =>
      cases h
      rw [wordAt, Nat.mul_zero, List.drop_zero, List.take_left' (le32_length _), ofLe32, Sys.FdSets.leValue_le32,
        UInt32.ofNat_toNat]
    | succ i =>
      have hdrop : (le32 w ++ words.flatMap le32).drop (4 * (i + 1)) = (words.flatMap le32).drop (4 * i) := by
        rw [Nat.mul_succ, Nat.add_comm, ← List.drop_drop, List.drop_left' (le32_length w)]
      rw [wordAt, hdrop]
      exact ih h

theorem ofBytes_toBytes (a : Addrinfo) : Addrinfo.ofBytes a.toBytes = a := by
  have hwords : a.toBytes = [a.aiFlags, a.aiFamily, a.aiSocktype, a.aiProtocol, a.aiAddrlen, a.aiAddr, a.aiCanonname,
      a.aiNext].flatMap le32 := by
    simp [Addrinfo.toBytes]
  have hread (i : Nat) {v : UInt32} (h : [a.aiFlags, a.aiFamily, a.aiSocktype, a.aiProtocol, a.aiAddrlen, a.aiAddr,
      a.aiCanonname, a.aiNext][i]? = some v) := wordAt_words h
  rw [hwords, Addrinfo.ofBytes, hread 0 rfl, hread 1 rfl, hread 2 rfl, hread 3 rfl, hread 4 rfl, hread 5 rfl,
    hread 6 rfl, hread 7 rfl]

section
variable (aiFlags aiSocktype aiProtocol : Int32) (port : UInt16)

def headerInfo (cursor : Nat) (ip : IpAddr) (rest : List IpAddr) : Addrinfo where
  aiFlags := aiFlags.toUInt32
  aiFamily := (aiFamily ip).toUInt32
  aiSocktype := aiSocktype.toUInt32
  aiProtocol := aiProtocol.toUInt32
  aiAddrlen := UInt32.ofNat (sockaddrSize ip)
  aiAddr := UInt32.ofNat (cursor + ADDRINFO_SIZE)
  aiCanonname := 0
  aiNext := UInt32.ofNat (nextOff (cursor + ADDRINFO_SIZE + sockaddrSize ip) rest)

def nodes (cursor : Nat) : List IpAddr → List Visited
  | [] => []
  | ip :: rest =>
    { off := cursor, info := headerInfo aiFlags aiSocktype aiProtocol cursor ip rest, addr := padded port ip } ::
      nodes (cursor + ADDRINFO_SIZE + sockaddrSize ip) rest

end

theorem header_eq (cursor : Nat) (ip : IpAddr) (rest : List IpAddr) :
    header aiFlags aiSocktype aiProtocol { ip, nodeOff := cursor, sockOff := cursor + ADDRINFO_SIZE }
        (nextOff (cursor + ADDRINFO_SIZE + sockaddrSize ip) rest) =
      (headerInfo aiFlags aiSocktype aiProtocol cursor ip rest).toBytes := rfl

theorem sockaddrSize_le (ip : IpAddr) : sockaddrSize ip ≤ 28 := by
  cases ip with
  | v4 octets => simp [sockaddrSize, isIpv4, SOCKADDR_IN_SIZE]
  | v6 octets => simp [sockaddrSize, isIpv4, SOCKADDR_IN6_SIZE]

theorem headerInfo_addrlen (cursor : Nat) (ip : IpAddr) (rest : List IpAddr) :
    (headerInfo aiFlags aiSocktype aiProtocol cursor ip rest).aiAddrlen.toNat = sockaddrSize ip := by
  have hle := sockaddrSize_le ip
  exact UInt32.toNat_ofNat_of_lt' (by simp only [UInt32.size]; omega)

theorem headerInfo_addr (h : cursor + ADDRINFO_SIZE < 2 ^ 32) (ip : IpAddr) (rest : List IpAddr) :
    (headerInfo aiFlags aiSocktype aiProtocol cursor ip rest).aiAddr.toNat = cursor + ADDRINFO_SIZE :=
  UInt32.toNat_ofNat_of_lt' h

theorem visit_append {pre post : List UInt8} (h : pre.length + ADDRINFO_SIZE < 2 ^ 32) (ip : IpAddr)
    (rest : List IpAddr) :
    visit (pre ++ ((headerInfo aiFlags aiSocktype aiProtocol pre.length ip rest).toBytes ++ (padded port ip ++ post)))
        pre.length =
      some { off := pre.length, info := headerInfo aiFlags aiSocktype aiProtocol pre.length ip rest,
             addr := padded port ip } := by
  generalize hinfo : headerInfo aiFlags aiSocktype aiProtocol pre.length ip rest = info
  have haddr : info.aiAddr.toNat = pre.length + ADDRINFO_SIZE := by rw [← hinfo, headerInfo_addr h]
  have haddrlen : info.aiAddrlen.toNat = sockaddrSize ip := by rw [← hinfo, headerInfo_addrlen]
  have hsize : info.toBytes.length = ADDRINFO_SIZE := by simp [Addrinfo.toBytes, ADDRINFO_SIZE]
  have hheader : ((pre ++ (info.toBytes ++ (padded port ip ++ post))).drop pre.length).take ADDRINFO_SIZE =
      info.toBytes := by
    rw [List.drop_left, List.take_left' hsize]
  have hbody : ((pre ++ (info.toBytes ++ (padded port ip ++ post))).drop (pre.length + ADDRINFO_SIZE)).take
      (sockaddrSize ip) = padded port ip := by
    rw [← List.append_assoc, List.drop_left' (by rw [List.length_append, hsize]),
      List.take_left' (padded_length port ip)]
  simp only [visit, hheader, ofBytes_toBytes, haddr, haddrlen, hbody]
  rw [if_pos]
  simp [hsize]
  omega

theorem walk_append {pre post : List UInt8} (h : pre.length + ADDRINFO_SIZE < 2 ^ 32) (fuel : Nat) (ip : IpAddr)
    (rest : List IpAddr) {info : Addrinfo} (hinfo : headerInfo aiFlags aiSocktype aiProtocol pre.length ip rest = info) :
    walk (pre ++ (info.toBytes ++ (padded port ip ++ post))) (fuel + 1) pre.length =
      if info.aiNext = 0 then some [{ off := pre.length, info, addr := padded port ip }]
      else (walk (pre ++ (info.toBytes ++ (padded port ip ++ post))) fuel info.aiNext.toNat).map
        fun found => { off := pre.length, info, addr := padded port ip } :: found := by
  subst hinfo
  rw [walk, visit_append h]
  simp only [Option.bind_eq_bind, Option.bind_some]
  split
  · rfl
  · cases walk _ fuel _ <;> rfl

theorem walk_layout (pre : List UInt8) (ip : IpAddr) (rest : List IpAddr)
    (h : pre.length + payloadSize (ip :: rest) < 2 ^ 32) :
    walk (pre ++ layout aiFlags aiSocktype aiProtocol (padded port) pre.length (ip :: rest)) (ip :: rest).length
        pre.length =
      some (nodes aiFlags aiSocktype aiProtocol port pre.length (ip :: rest)) := by
  induction rest generalizing pre ip with
  | nil =>
    rw [payloadSize_cons] at h
    rw [layout, header_eq, List.length_cons, walk_append (by omega) _ _ _ rfl]
    rfl
  | cons ip' rest ih =>
    rw [payloadSize_cons, payloadSize_cons] at h
    generalize hinfo : headerInfo aiFlags aiSocktype aiProtocol pre.length ip (ip' :: rest) = info
    -- The rest of the payload, behind the bytes of the first node.
    have hlength : (pre ++ (info.toBytes ++ padded port ip)).length = pre.length + ADDRINFO_SIZE + sockaddrSize ip := by
      simp [Addrinfo.toBytes, ADDRINFO_SIZE]
      omega
    have hrest := ih (pre ++ (info.toBytes ++ padded port ip)) ip' (by rw [hlength, payloadSize_cons]; omega)
    have hnext : info.aiNext.toNat = pre.length + ADDRINFO_SIZE + sockaddrSize ip := by
      rw [← hinfo]
      exact UInt32.toNat_ofNat_of_lt' (show pre.length + ADDRINFO_SIZE + sockaddrSize ip < 2 ^ 32 by omega)
    have hpos : info.aiNext ≠ 0 := by
      intro hzero
      rw [hzero] at hnext
      simp only [ADDRINFO_SIZE, UInt32.toNat_zero] at hnext
      omega
    rw [hlength, List.append_assoc, List.append_assoc] at hrest
    rw [layout, header_eq, hinfo, List.length_cons, walk_append (by omega) _ _ _ hinfo, if_neg hpos, hnext, hrest,
      Option.map_some, ← hinfo]
    rfl

-- ---------------------------------------------------------------------------
-- What the nodes say
-- ---------------------------------------------------------------------------

theorem nodes_decode (aiFlags aiSocktype aiProtocol : Int32) (port : UInt16) (cursor : Nat) (addrs : List IpAddr) :
    List.Forall₂ (Decodes aiFlags aiSocktype aiProtocol port) addrs
      (nodes aiFlags aiSocktype aiProtocol port cursor addrs) := by
  induction addrs generalizing cursor with
  | nil => exact .nil
  | cons ip rest ih =>
    refine .cons ?_ (ih _)
    exact {
      flags := rfl
      family := rfl
      socktype := rfl
      protocol := rfl
      addrlen := headerInfo_addrlen cursor ip rest
      addr := decodeAddr_padded port ip
    }

def spans (found : List Visited) : List Span := found.flatMap Visited.spans

theorem spans_cons (h : cursor + ADDRINFO_SIZE < 2 ^ 32) (ip : IpAddr) (rest : List IpAddr) :
    spans (nodes aiFlags aiSocktype aiProtocol port cursor (ip :: rest)) =
      (cursor, ADDRINFO_SIZE) :: (cursor + ADDRINFO_SIZE, sockaddrSize ip) ::
        spans (nodes aiFlags aiSocktype aiProtocol port (cursor + ADDRINFO_SIZE + sockaddrSize ip) rest) := by
  rw [spans, nodes, List.flatMap_cons, Visited.spans, headerInfo_addr h, headerInfo_addrlen]
  rfl

theorem covers_nodes (h : cursor + payloadSize addrs < 2 ^ 32) :
    covers (spans (nodes aiFlags aiSocktype aiProtocol port cursor addrs)) =
      Set.Ico cursor (cursor + payloadSize addrs) := by
  induction addrs generalizing cursor with
  | nil => simp [spans, nodes, payloadSize]
  | cons ip rest ih =>
    rw [payloadSize_cons] at h ⊢
    rw [spans_cons (by omega), covers_cons, covers_cons, ih (by omega)]
    ext x
    simp only [Set.mem_union, Span.mem_points, Set.mem_Ico]
    omega

theorem pairwise_nodes (h : cursor + payloadSize addrs < 2 ^ 32) :
    (spans (nodes aiFlags aiSocktype aiProtocol port cursor addrs)).Pairwise Span.Apart ∧
      ∀ r ∈ spans (nodes aiFlags aiSocktype aiProtocol port cursor addrs), cursor ≤ r.1 := by
  induction addrs generalizing cursor with
  | nil => simp [spans, nodes]
  | cons ip rest ih =>
    rw [payloadSize_cons] at h
    have hrest : cursor + ADDRINFO_SIZE + sockaddrSize ip + payloadSize rest < 2 ^ 32 := by omega
    obtain ⟨hpairwise, hfrom⟩ := ih hrest
    rw [spans_cons (by omega)]
    refine ⟨.cons ?_ (.cons ?_ hpairwise), ?_⟩
    · rintro r hr
      obtain rfl | hr := List.mem_cons.mp hr
      · exact .inl le_rfl
      · exact .inl (Nat.le_trans (Nat.le_add_right _ _) (hfrom r hr))
    · rintro r hr
      exact .inl (hfrom r hr)
    · rintro r hr
      obtain rfl | hr := List.mem_cons.mp hr
      · exact le_rfl
      obtain rfl | hr := List.mem_cons.mp hr
      · exact Nat.le_add_right _ _
      · exact Nat.le_trans (Nat.le_add_right _ _) (Nat.le_trans (Nat.le_add_right _ _) (hfrom r hr))

/-- The reader finds a node for each address, in their order, and the nodes take up the payload. -/
structure ReadsBack (aiFlags aiSocktype aiProtocol : Int32) (port : UInt16) (addrs : List IpAddr) (out : List UInt8)
    (found : List Visited) : Prop where
  decoded : List.Forall₂ (Decodes aiFlags aiSocktype aiProtocol port) addrs found
  apart : (spans found).Pairwise Span.Apart
  covered : covers (spans found) = Set.Ico 0 out.length

theorem payload_reads_back (aiFlags aiSocktype aiProtocol : Int32) (port : UInt16) (hne : addrs ≠ [])
    (h : (marshalAddrinfoIntoVec aiFlags aiSocktype aiProtocol port addrs).1.length < 2 ^ 32) :
    ∃ found, walk (marshalAddrinfoIntoVec aiFlags aiSocktype aiProtocol port addrs).1 addrs.length
        (marshalAddrinfoIntoVec aiFlags aiSocktype aiProtocol port addrs).2.toNat = some found ∧
      ReadsBack aiFlags aiSocktype aiProtocol port addrs
        (marshalAddrinfoIntoVec aiFlags aiSocktype aiProtocol port addrs).1 found := by
  rw [marshalAddrinfoIntoVec_layout] at h ⊢
  rw [layout_length] at h
  have hsize : 0 + payloadSize addrs < 2 ^ 32 := by rwa [Nat.zero_add]
  refine ⟨nodes aiFlags aiSocktype aiProtocol port 0 addrs, ?_, ?_⟩
  · cases addrs with
    | nil => exact absurd rfl hne
    | cons ip rest => exact walk_layout [] ip rest hsize
  · exact {
      decoded := nodes_decode aiFlags aiSocktype aiProtocol port 0 addrs
      apart := (pairwise_nodes hsize).1
      covered := by rw [covers_nodes hsize, layout_length, Nat.zero_add]
    }

theorem payload_reads_back_mixed :
    ∃ found, walk (marshalAddrinfoIntoVec 0 1 6 443 [.v6 (Vector.replicate 16 1), .v4 #v[10, 0, 0, 1]]).1 2
        (marshalAddrinfoIntoVec 0 1 6 443 [.v6 (Vector.replicate 16 1), .v4 #v[10, 0, 0, 1]]).2.toNat = some found ∧
      ReadsBack 0 1 6 443 [.v6 (Vector.replicate 16 1), .v4 #v[10, 0, 0, 1]]
        (marshalAddrinfoIntoVec 0 1 6 443 [.v6 (Vector.replicate 16 1), .v4 #v[10, 0, 0, 1]]).1 found :=
  payload_reads_back 0 1 6 443 (by decide) (by rw [marshalAddrinfoIntoVec_layout, layout_length]; decide)

end EdgeLibos.Guest.Payload
