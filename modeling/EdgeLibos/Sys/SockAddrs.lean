import EdgeLibos.Sys.FdSets
import EdgeLibos.Sys.GuestStr
import EdgeLibos.Sys.Socket
import Mathlib.Data.List.TakeWhile

/-!
# Socket addresses in guest memory

What `parse_sockaddr` makes of the bytes it reads, and that it reads back the address
that `getsockname` and its kin write.
-/

namespace EdgeLibos.Sys.SockAddrs

open Errno Lib
open FdSets (Fits SameSize slice_byteAt fits_iff guestCopy_fits guestCopy_fitted guestCopy_sameSize)
open Paths (parseSockaddr sunPath be16At bytesOf AF_UNIX AF_INET AF_INET6 SOCKADDR_IN_SIZE SOCKADDR_IN6_SIZE
  SOCKADDR_UN_SIZE)

variable {memory memory' : Option MemoryKind} {ptr len : Int} {bytes new : List UInt8}

-- ---------------------------------------------------------------------------
-- Slices by their bytes
-- ---------------------------------------------------------------------------

theorem slice_length (h : guestSlice memory ptr len = .ok bytes) : bytes.length = len.toNat := by
  obtain ⟨mem, -, -, -, hle, rfl⟩ := guestSlice_ok h
  have hsize : mem.size = mem.data.length := rfl
  rw [List.length_take, List.length_drop]
  omega

theorem slice_eq (hfits : Fits memory ptr len) (hlen : bytes.length = len.toNat)
    (hbytes : ∀ i < len.toNat, byteAt memory (ptr.toNat + i) = bytes[i]?) :
    guestSlice memory ptr len = .ok bytes := by
  obtain ⟨found, hfound⟩ := hfits.slice
  have hsame : found = bytes := by
    refine List.ext_getElem? fun i => ?_
    by_cases hi : i < len.toNat
    · rw [slice_byteAt hfound hi, hbytes i hi]
    · rw [List.getElem?_eq_none (by rw [slice_length hfound]; omega), List.getElem?_eq_none (by omega)]
  rw [hfound, hsame]

theorem slice_congr (h : guestSlice memory ptr len = .ok bytes) (hfits : Fits memory' ptr len)
    (hsame : ∀ i < len.toNat, byteAt memory' (ptr.toNat + i) = byteAt memory (ptr.toNat + i)) :
    guestSlice memory' ptr len = .ok bytes := by
  refine slice_eq hfits (slice_length h) fun i hi => ?_
  rw [hsame i hi, slice_byteAt h hi]

theorem slice_take (h : guestSlice memory ptr len = .ok bytes) {n : Int} (hn : 0 ≤ n) (hle : n ≤ len) :
    guestSlice memory ptr n = .ok (bytes.take n.toNat) := by
  have hlen := slice_length h
  have hfits : Fits memory ptr n := by
    obtain ⟨mem, hmem, hptr, -, hroom⟩ := fits_iff.mp (Fits.of_slice h)
    exact fits_iff.mpr ⟨mem, hmem, hptr, hn, by omega⟩
  refine slice_eq hfits ?_ fun i hi => ?_
  · rw [List.length_take]
    omega
  · rw [List.getElem?_take_of_lt hi, slice_byteAt h (by omega)]

theorem copy_read (h : guestCopy memory ptr len new = .ok memory') :
    guestSlice memory' ptr new.length = .ok new := by
  obtain ⟨hfits, hle, hsame⟩ := guestCopy_fitted h
  obtain ⟨mem, hmem, hptr, hlen, hroom⟩ := fits_iff.mp hfits
  refine slice_eq ?_ (by rw [Int.toNat_natCast]) fun i hi => ?_
  · rw [hsame, fits_iff]
    exact ⟨mem, hmem, hptr, by omega, by omega⟩
  · have hspan : Span ptr new.length (ptr.toNat + i) := by
      unfold Span
      omega
    rw [guestCopy_byteAt h, if_pos hspan, Nat.add_sub_cancel_left]

theorem copy_room (new : List UInt8) (hfits : Fits memory ptr len) (hnew : new.length ≤ len.toNat) :
    ∃ memory', guestCopy memory ptr len new = .ok memory' := by
  obtain ⟨mem, rfl, hptr, hlen, hroom⟩ := fits_iff.mp hfits
  unfold guestCopy
  rw [if_neg (by omega)]
  simp only [ownedOf]
  rw [dif_pos ⟨hroom, hnew⟩]
  exact ⟨_, rfl⟩

theorem zeroPage_fits (hlow : 0 ≤ ptr) (hlen : 0 ≤ len) (hhigh : ptr + len ≤ 65536) :
    Fits (some (.owned .zeroPage)) ptr len :=
  fits_iff.mpr ⟨_, rfl, hlow, hlen, by rw [LinearMemory.zeroPage_size]; omega⟩

theorem slice_copy_disjoint (h : guestSlice memory ptr len = .ok bytes)
    (hcopy : guestCopy memory p n new = .ok memory')
    (hdisjoint : ptr + len ≤ p ∨ p + n ≤ ptr) : guestSlice memory' ptr len = .ok bytes := by
  obtain ⟨-, hle, -⟩ := guestCopy_fitted hcopy
  obtain ⟨mem, -, hptr, hlen, -⟩ := guestSlice_ok h
  refine slice_congr h (guestCopy_sameSize hcopy _ _ (.of_slice h)) fun i hi => ?_
  rw [guestCopy_byteAt hcopy, if_neg]
  unfold Span
  omega

-- ---------------------------------------------------------------------------
-- What parse_sockaddr makes of a slice
-- ---------------------------------------------------------------------------

theorem parseSockaddr_header (hptr : ptr ≠ 0) (hlen : 0 < len) (h : guestSlice memory ptr 2 = .ok bytes) :
    parseSockaddr memory ptr len =
      if leValue bytes = AF_INET then
        if len < SOCKADDR_IN_SIZE then .error (-EINVAL)
        else (guestSlice memory ptr SOCKADDR_IN_SIZE).map fun bytes =>
          .v4 (be16At bytes 2) (.ofFn fun i => bytes.getD (4 + i) 0)
      else if leValue bytes = AF_INET6 then
        if len < SOCKADDR_IN6_SIZE then .error (-EINVAL)
        else (guestSlice memory ptr SOCKADDR_IN6_SIZE).map fun bytes =>
          .v6 (be16At bytes 2) (.ofFn fun i => bytes.getD (8 + i) 0)
      else if leValue bytes = AF_UNIX then
        if len < 3 then .error (-EINVAL)
        else (guestSlice memory ptr SOCKADDR_UN_SIZE).bind sunPath
      else .error (-EAFNOSUPPORT) := by
  unfold parseSockaddr
  rw [if_neg (by omega), if_neg (by omega), h]
  rfl

-- ---------------------------------------------------------------------------
-- Addresses as they are written
-- ---------------------------------------------------------------------------

def sockaddrIn6 (port : UInt16) (addr : Vector UInt8 16) : List UInt8 :=
  le16 (UInt16.ofNat AF_INET6) ++ be16 port ++ List.replicate 4 0 ++ addr.toList ++ List.replicate 4 0

def encode : SockAddr → List UInt8
  | .v4 port addr => sockaddrIn port addr
  | .v6 port addr => sockaddrIn6 port addr
  | .unix path => sockaddrUn (some path)

def encodedLen : SockAddr → Nat
  | .v4 _ _ => SOCKADDR_IN_SIZE
  | .v6 _ _ => SOCKADDR_IN6_SIZE
  | .unix path => 2 + (bytesOf path).length + 1

/-- A path that fits into a `sun_path` with its NUL, and is not an abstract name. -/
def Encodable : SockAddr → Prop
  | .unix path => bytesOf path ≠ [] ∧ 0 ∉ bytesOf path ∧ (bytesOf path).length < 108
  | _ => True

theorem be16_eq (v : UInt16) : be16 v = [UInt8.ofNat (v.toNat / 256), UInt8.ofNat v.toNat] := rfl

theorem be16At_be16 (v : UInt16) (a b : UInt8) (rest : List UInt8) :
    be16At (a :: b :: (be16 v ++ rest)) 2 = v := by
  have hlt := v.toNat_lt
  have hhigh : (UInt8.ofNat (v.toNat / 256)).toNat = v.toNat / 256 := by
    rw [UInt8.toNat_ofNat', Nat.mod_eq_of_lt (by omega)]
  have hlow : (UInt8.ofNat v.toNat).toNat = v.toNat % 256 := UInt8.toNat_ofNat'
  have hvalue : v.toNat / 256 * 256 + v.toNat % 256 = v.toNat := by omega
  simp only [be16_eq, be16At, List.cons_append, List.nil_append, List.getD_cons_succ, List.getD_cons_zero, hhigh,
    hlow, hvalue, UInt16.ofNat_toNat]

theorem ofFn_drop (before after : List UInt8) {addr : Vector UInt8 n} (hk : before.length = k) :
    (Vector.ofFn fun i : Fin n => (before ++ (addr.toList ++ after)).getD (k + i) 0) = addr := by
  refine Vector.ext fun i hi => ?_
  have haddr : i < addr.toList.length := by rwa [Vector.length_toList]
  rw [Vector.getElem_ofFn, List.getD_eq_getElem?_getD, List.getElem?_append_right (by simp [hk]), hk,
    Nat.add_sub_cancel_left, List.getElem?_append_left haddr, List.getElem?_eq_getElem haddr]
  simp

theorem sockaddrIn_eq (port : UInt16) (addr : Vector UInt8 4) : sockaddrIn port addr =
    (le16 (UInt16.ofNat AF_INET) ++ be16 port) ++ (addr.toList ++ List.replicate 8 0) := List.append_assoc ..

theorem sockaddrIn6_eq (port : UInt16) (addr : Vector UInt8 16) : sockaddrIn6 port addr =
    (le16 (UInt16.ofNat AF_INET6) ++ be16 port ++ List.replicate 4 0) ++
      (addr.toList ++ List.replicate 4 0) := List.append_assoc ..

theorem sockaddrIn_length (port : UInt16) (addr : Vector UInt8 4) :
    (sockaddrIn port addr).length = SOCKADDR_IN_SIZE := by
  simp [sockaddrIn, SOCKADDR_IN_SIZE]

theorem sockaddrIn6_length (port : UInt16) (addr : Vector UInt8 16) :
    (sockaddrIn6 port addr).length = SOCKADDR_IN6_SIZE := by
  simp [sockaddrIn6, SOCKADDR_IN6_SIZE]

theorem sockaddrUn_length (path : Option PathBuf) : (sockaddrUn path).length = SOCKADDR_UN_SIZE := by
  simp [sockaddrUn, SOCKADDR_UN_SIZE]

theorem sockaddrIn_parse (port : UInt16) (addr : Vector UInt8 4) :
    be16At (sockaddrIn port addr) 2 = port ∧
      (Vector.ofFn fun i : Fin 4 => (sockaddrIn port addr).getD (4 + i) 0) = addr := by
  constructor
  · exact be16At_be16 port 2 0 _
  · rw [sockaddrIn_eq]
    exact ofFn_drop _ _ (by simp)

theorem sockaddrIn6_parse (port : UInt16) (addr : Vector UInt8 16) :
    be16At (sockaddrIn6 port addr) 2 = port ∧
      (Vector.ofFn fun i : Fin 16 => (sockaddrIn6 port addr).getD (8 + i) 0) = addr := by
  constructor
  · exact be16At_be16 port 10 0 _
  · rw [sockaddrIn6_eq]
    exact ofFn_drop _ _ (by simp)

theorem sunPath_sockaddrUn {path : PathBuf} (h : Encodable (.unix path)) :
    sunPath (sockaddrUn (some path)) = .ok (.unix path) := by
  obtain ⟨hne, hnul, hlt⟩ := h
  have hbytes : sockaddrUn (some path) =
      1 :: 0 :: (bytesOf path ++ List.replicate (108 - (bytesOf path).length) 0) := by
    have hshort : (bytesOf path).take 108 = bytesOf path := List.take_of_length_le (by omega)
    have hcut : (bytesOf path ++ List.replicate 108 0).take 108 =
        bytesOf path ++ List.replicate (108 - (bytesOf path).length) 0 := by
      rw [List.take_append, hshort, List.take_replicate, Nat.min_eq_left (by omega)]
    rw [sockaddrUn, Option.elim_some, hshort, hcut]
    rfl
  obtain ⟨b, rest, hb⟩ := List.exists_cons_of_ne_nil hne
  have hfirst : b ≠ 0 := by
    rintro rfl
    rw [hb] at hnul
    exact hnul List.mem_cons_self
  have htake : (bytesOf path ++ List.replicate (108 - (bytesOf path).length) 0).takeWhile (· ≠ 0) =
      bytesOf path := by
    have hzeros : List.replicate (108 - (bytesOf path).length) (0 : UInt8) =
        0 :: List.replicate (107 - (bytesOf path).length) 0 := by
      rw [← List.replicate_succ]
      congr 1
      omega
    rw [hzeros, takeWhile_nul hnul]
  have hstring : String.fromUTF8? ⟨(bytesOf path).toArray⟩ = some path := fromUTF8?_eq_some.mpr rfl
  have hdrop : (sockaddrUn (some path)).drop 2 =
      bytesOf path ++ List.replicate (108 - (bytesOf path).length) 0 := by
    rw [hbytes]
    rfl
  have hthird : (sockaddrUn (some path)).getD 2 0 = b := by
    rw [hbytes, hb]
    rfl
  unfold sunPath
  rw [if_neg (hthird ▸ hfirst), hdrop, htake, hstring]

theorem sunPath_ok (h : sunPath bytes = .ok addr) :
    ∃ path, addr = .unix path ∧ bytesOf path ≠ [] ∧ 0 ∉ bytesOf path := by
  unfold sunPath at h
  split at h
  · cases h
  · rename_i hfirst
    split at h
    · rename_i path hpath
      cases h
      have hbytes : (bytes.drop 2).takeWhile (· ≠ 0) = bytesOf path := fromUTF8?_eq_some.mp hpath
      refine ⟨path, rfl, fun hnil => hfirst ?_, fun hnul => ?_⟩
      · rw [List.getD_eq_getElem?_getD, ← List.getElem?_drop (i := 2) (j := 0)]
        rw [hnil] at hbytes
        cases hrest : bytes.drop 2 with
        | nil => rfl
        | cons b rest =>
          rw [hrest] at hbytes
          by_contra hb
          have hb' : b ≠ 0 := hb
          simp [hb'] at hbytes
      · rw [← hbytes] at hnul
        simpa using List.mem_takeWhile_imp hnul
    · cases h

theorem sunPath_unix (h : parseSockaddr memory ptr len = .ok (.unix path)) :
    bytesOf path ≠ [] ∧ 0 ∉ bytesOf path := by
  unfold parseSockaddr at h
  split at h
  · cases h
  · split at h
    · cases h
    · obtain ⟨header, -, h⟩ := bind_ok h
      dsimp only at h
      split at h
      · split at h
        · cases h
        · obtain ⟨bytes, -, h⟩ := bind_ok h
          cases h
      · split at h
        · split at h
          · cases h
          · obtain ⟨bytes, -, h⟩ := bind_ok h
            cases h
        · split at h
          · split at h
            · cases h
            · obtain ⟨bytes, -, h⟩ := bind_ok h
              obtain ⟨path', hpath, hok⟩ := sunPath_ok h
              cases hpath
              exact hok
          · cases h

theorem sunPath_error_neg (h : sunPath bytes = .error e) : e < 0 := by
  have heopnotsupp : -EOPNOTSUPP < 0 := by decide
  have heinval : -EINVAL < 0 := by decide
  unfold sunPath at h
  split at h
  · cases h
    exact heopnotsupp
  · split at h
    · cases h
    · cases h
      exact heinval

theorem parseSockaddr_error_neg (h : parseSockaddr memory ptr len = .error e) : e < 0 := by
  have hedestaddrreq : -EDESTADDRREQ < 0 := by decide
  have heinval : -EINVAL < 0 := by decide
  have heafnosupport : -EAFNOSUPPORT < 0 := by decide
  have hslice : ∀ {n : Int} {f : List UInt8 → SockAddr},
      (guestSlice memory ptr n >>= fun bytes => .ok (f bytes)) = .error e → e < 0 := by
    intro n f h
    rcases bind_error h with h | ⟨bytes, -, h⟩
    · exact guestSlice_error_neg h
    · cases h
  unfold parseSockaddr at h
  split at h
  · cases h
    exact hedestaddrreq
  · split at h
    · cases h
      exact heinval
    · rcases bind_error h with h | ⟨header, -, h⟩
      · exact guestSlice_error_neg h
      · dsimp only at h
        split at h
        · split at h
          · cases h
            exact heinval
          · exact hslice h
        · split at h
          · split at h
            · cases h
              exact heinval
            · exact hslice h
          · split at h
            · split at h
              · cases h
                exact heinval
              · rcases bind_error h with h | ⟨bytes, -, h⟩
                · exact guestSlice_error_neg h
                · exact sunPath_error_neg h
            · cases h
              exact heafnosupport

theorem parseSockaddr_short (hlen : len < 3) : parseSockaddr memory ptr len ≠ .ok addr := by
  intro h
  unfold parseSockaddr at h
  split at h
  · cases h
  · split at h
    · cases h
    · obtain ⟨header, -, h⟩ := bind_ok h
      dsimp only at h
      split at h
      · rw [if_pos (by simp [SOCKADDR_IN_SIZE]; omega)] at h
        cases h
      · split at h
        · rw [if_pos (by simp [SOCKADDR_IN6_SIZE]; omega)] at h
          cases h
        · split at h
          · cases h
          · cases h

/-- The bytes that stand at an address, as `parse_sockaddr` looks at them. -/
def Stands (memory : Option MemoryKind) (ptr : Int) (addr : SockAddr) : Prop :=
  guestSlice memory ptr (encode addr).length = .ok (encode addr)

theorem encodedLen_pos (addr : SockAddr) : 0 < encodedLen addr := by
  cases addr <;> simp [encodedLen, SOCKADDR_IN_SIZE, SOCKADDR_IN6_SIZE]

theorem parse_encoded (hptr : ptr ≠ 0) (haddr : Encodable addr) (h : Stands memory ptr addr) :
    parseSockaddr memory ptr (encodedLen addr) = .ok addr := by
  have hpos := encodedLen_pos addr
  have hlong : 2 ≤ ((encode addr).length : Int) := by
    cases addr with
    | v4 port a => simp [encode, sockaddrIn_length, SOCKADDR_IN_SIZE]
    | v6 port a => simp [encode, sockaddrIn6_length, SOCKADDR_IN6_SIZE]
    | unix path => simp [encode, sockaddrUn_length, SOCKADDR_UN_SIZE]
  have hheader := slice_take h (by decide) hlong
  rw [parseSockaddr_header hptr (by omega) hheader]
  cases addr with
  | v4 port a =>
    have hslice : guestSlice memory ptr SOCKADDR_IN_SIZE = .ok (sockaddrIn port a) := by
      rw [← sockaddrIn_length port a]
      exact h
    have hfamily : leValue ((encode (.v4 port a)).take (2 : Int).toNat) = AF_INET := rfl
    rw [if_pos hfamily, if_neg (by simp [encodedLen]), hslice]
    obtain ⟨hport, hbytes⟩ := sockaddrIn_parse port a
    simp only [Except.map, hport, hbytes]
  | v6 port a =>
    have hslice : guestSlice memory ptr SOCKADDR_IN6_SIZE = .ok (sockaddrIn6 port a) := by
      rw [← sockaddrIn6_length port a]
      exact h
    have hfamily : leValue ((encode (.v6 port a)).take (2 : Int).toNat) = AF_INET6 := rfl
    rw [hfamily, if_neg (by decide), if_pos rfl, if_neg (by simp [encodedLen]), hslice]
    obtain ⟨hport, hbytes⟩ := sockaddrIn6_parse port a
    simp only [Except.map, hport, hbytes]
  | unix path =>
    have hslice : guestSlice memory ptr SOCKADDR_UN_SIZE = .ok (sockaddrUn (some path)) := by
      rw [← sockaddrUn_length (some path)]
      exact h
    have hfamily : leValue ((encode (.unix path)).take (2 : Int).toNat) = AF_UNIX := rfl
    have hbytes : 0 < (bytesOf path).length := List.length_pos_of_ne_nil haddr.1
    rw [hfamily, if_neg (by decide), if_neg (by decide), if_pos rfl, if_neg (by simp [encodedLen]; omega), hslice]
    exact sunPath_sockaddrUn haddr

def structMemory (path : PathBuf) : Option MemoryKind :=
  writeOut (some (.owned .zeroPage)) 16 SOCKADDR_UN_SIZE (sockaddrUn (some path))

theorem structMemory_slice (path : PathBuf) :
    guestSlice (structMemory path) 16 SOCKADDR_UN_SIZE = .ok (sockaddrUn (some path)) := by
  have hlength : (sockaddrUn (some path)).length = SOCKADDR_UN_SIZE := sockaddrUn_length _
  have hfits : Fits (some (.owned .zeroPage)) 16 SOCKADDR_UN_SIZE := zeroPage_fits (by decide) (by decide) (by decide)
  obtain ⟨m, hcopy⟩ := copy_room (sockaddrUn (some path)) hfits hlength.le
  have hmemory : structMemory path = m := by
    rw [structMemory, writeOut, if_neg (by decide), hcopy]
  rw [hmemory, ← hlength]
  exact copy_read hcopy

end EdgeLibos.Sys.SockAddrs
