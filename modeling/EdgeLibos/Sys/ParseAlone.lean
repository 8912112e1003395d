import EdgeLibos.Sys.SockAddrs

/-!
# An address within its length

`parse_sockaddr` reads whole structs, whatever the length it is given. Which addresses are
settled by the bytes of that length, and which by what lies behind them: the rest of a
path, or the end of memory.
-/

namespace EdgeLibos.Sys.ParseAlone

open Errno Lib Mm
open FdSets (Fits fits_iff)
open SockAddrs (slice_length slice_take parseSockaddr_header copy_read copy_room structMemory
  structMemory_slice)
open Paths (parseSockaddr sunPath AF_UNIX AF_INET AF_INET6 SOCKADDR_IN_SIZE SOCKADDR_IN6_SIZE SOCKADDR_UN_SIZE)

/-- Memory can end from `start` on and before `stop`. -/
def Crosses (start stop : Int) : Prop := ∃ n : Nat, start ≤ n * PAGE_SIZE ∧ n * PAGE_SIZE < stop

/-- The given bytes settle the path: it ends among them, or is no string whatever follows. -/
def PathSettled (len : Int) (path : List UInt8) : Prop :=
  0 ∈ path ∨ ∀ more : List UInt8, (more.length : Int) ≤ SOCKADDR_UN_SIZE - len → 0 ∉ more → ¬ Utf8 (path ++ more)

/-- The bytes settle the result. Of one byte: what lies behind it is never there, or always
and of no known family with it. Of a Unix address that is shorter than its struct: the
struct is never in memory, or always and the path is settled. -/
def Settled (ptr len : Int) (bytes : List UInt8) : Prop :=
  ptr = 0 ∨ len ≤ 0 ∨
    (len = 1 ∧ (2 ^ 32 < ptr + 2 ∨
      (leValue bytes ≠ AF_UNIX ∧ leValue bytes ≠ AF_INET ∧ leValue bytes ≠ AF_INET6) ∧
        ¬ Crosses (ptr + 1) (ptr + 2))) ∨
    (2 ≤ len ∧ (leValue (bytes.take 2) ≠ AF_UNIX ∨ len < 3 ∨ SOCKADDR_UN_SIZE ≤ len ∨
      2 ^ 32 < ptr + SOCKADDR_UN_SIZE ∨
      ¬ Crosses (ptr + len) (ptr + SOCKADDR_UN_SIZE) ∧ PathSettled len (bytes.drop 2)))

variable {memory memory' : Option MemoryKind} {ptr len n : Int} {bytes : List UInt8}

-- ---------------------------------------------------------------------------
-- Where memory ends
-- ---------------------------------------------------------------------------

theorem fits_or_fault (h : Fits memory ptr len) (hn : 0 ≤ n) :
    Fits memory ptr n ∨ guestSlice memory ptr n = .error (-EFAULT) := by
  obtain ⟨mem, rfl, hptr, -, -⟩ := fits_iff.mp h
  by_cases hroom : ptr.toNat + n.toNat ≤ mem.size
  · exact .inl (.of_size hptr hn hroom)
  · refine .inr ?_
    rw [guestSlice, if_neg (by omega)]
    simp only [ownedOf]
    rw [if_neg hroom]

theorem Fits.top (h : Fits memory ptr len) : ptr + len ≤ 2 ^ 32 := by
  obtain ⟨mem, -, hptr, hlen, hroom⟩ := fits_iff.mp h
  have hsize := mem.size_le
  omega

/-- Memory that does not end among the bytes has them all. -/
theorem Fits.whole (h : Fits memory ptr len) (hn : 0 ≤ n) (hcross : ¬ Crosses (ptr + len) (ptr + n)) :
    Fits memory ptr n := by
  obtain ⟨mem, rfl, hptr, hlen, hroom⟩ := fits_iff.mp h
  have hsize := mem.size_eq
  by_contra hnot
  refine hcross ⟨mem.pages, ?_, ?_⟩
  · omega
  · by_contra hle
    refine hnot (.of_size hptr hn ?_)
    omega

theorem memory_with (bytes : List UInt8) (pages : Nat) (hpages : pages ≤ 65536) (hptr : 0 ≤ ptr)
    (hroom : ptr + bytes.length ≤ pages * PAGE_SIZE) : ∃ memory, guestSlice memory ptr bytes.length = .ok bytes ∧
      ∀ n, 0 ≤ n → (Fits memory ptr n ↔ ptr + n ≤ pages * PAGE_SIZE) := by
  have hfits (n : Int) (hn : 0 ≤ n) : Fits (some (.owned (.filled 0 pages 65536 hpages (le_refl _)))) ptr n ↔
      ptr + n ≤ pages * PAGE_SIZE := by
    rw [fits_iff]
    constructor
    · rintro ⟨mem, hmem, -, -, hle⟩
      cases hmem
      rw [LinearMemory.filled_size] at hle
      omega
    · intro hle
      refine ⟨_, rfl, hptr, hn, ?_⟩
      rw [LinearMemory.filled_size]
      omega
  obtain ⟨memory, hcopy⟩ := copy_room bytes ((hfits bytes.length (by omega)).mpr hroom) (by simp)
  refine ⟨memory, copy_read hcopy, fun n hn => ?_⟩
  rw [(FdSets.guestCopy_fitted hcopy).2.2, hfits n hn]

-- ---------------------------------------------------------------------------
-- What is parsed
-- ---------------------------------------------------------------------------

variable {header text path more : List UInt8}

theorem parse_nothing (h : ptr = 0 ∨ len ≤ 0) (memory memory' : Option MemoryKind) :
    parseSockaddr memory' ptr len = parseSockaddr memory ptr len := by
  unfold parseSockaddr
  by_cases hnone : ptr = 0 ∨ len = 0
  · rw [if_pos hnone, if_pos hnone]
  · have hneg : len < 0 := by omega
    rw [if_neg hnone, if_neg hnone, if_pos hneg, if_pos hneg]

theorem parse_fault (hptr : ptr ≠ 0) (hlen : 0 < len) (h : guestSlice memory ptr 2 = .error e) :
    parseSockaddr memory ptr len = .error e := by
  unfold parseSockaddr
  rw [if_neg (by omega), if_neg (by omega), h]
  rfl

theorem parse_one (hptr : ptr ≠ 0) (h : guestSlice memory ptr 2 = .ok header) :
    parseSockaddr memory ptr 1 = .error
      (if leValue header = AF_INET ∨ leValue header = AF_INET6 ∨ leValue header = AF_UNIX then -EINVAL
      else -EAFNOSUPPORT) := by
  rw [parseSockaddr_header hptr (by decide) h]
  by_cases hin : leValue header = AF_INET
  · rw [if_pos hin, if_pos (by decide), if_pos (.inl hin)]
  · by_cases hin6 : leValue header = AF_INET6
    · rw [if_neg hin, if_pos hin6, if_pos (by decide), if_pos (.inr (.inl hin6))]
    · by_cases hunix : leValue header = AF_UNIX
      · rw [if_neg hin, if_neg hin6, if_pos hunix, if_pos (by decide), if_pos (.inr (.inr hunix))]
      · rw [if_neg hin, if_neg hin6, if_neg hunix, if_neg (by simp [hin, hin6, hunix])]

theorem parse_unix (hptr : ptr ≠ 0) (hlen : 3 ≤ len) (h : guestSlice memory ptr len = .ok bytes)
    (hfamily : leValue (bytes.take 2) = AF_UNIX) :
    parseSockaddr memory ptr len = (guestSlice memory ptr SOCKADDR_UN_SIZE).bind sunPath := by
  have hheader := slice_take h (by decide) (by omega : (2 : Int) ≤ len)
  have hvalue : leValue (bytes.take (2 : Int).toNat) = AF_UNIX := hfamily
  rw [parseSockaddr_header hptr (by omega) hheader, hvalue, if_neg (by decide), if_neg (by decide), if_pos rfl,
    if_neg (by omega)]

/-- Any other address is parsed from its own bytes. -/
theorem parse_inet (hptr : ptr ≠ 0) (hlen : 2 ≤ len) (h : guestSlice memory ptr len = .ok bytes)
    (h' : guestSlice memory' ptr len = .ok bytes)
    (hfamily : leValue (bytes.take 2) ≠ AF_UNIX ∨ len < 3 ∨ SOCKADDR_UN_SIZE ≤ len) :
    parseSockaddr memory' ptr len = parseSockaddr memory ptr len := by
  have hsame (n : Int) (hn : 0 ≤ n) (hle : n ≤ len) : guestSlice memory' ptr n = guestSlice memory ptr n :=
    (slice_take h' hn hle).trans (slice_take h hn hle).symm
  have hheader := slice_take h (by decide) hlen
  rw [parseSockaddr_header hptr (by omega) hheader,
    parseSockaddr_header hptr (by omega) ((hsame 2 (by decide) hlen).trans hheader)]
  have hvalue : leValue (bytes.take (2 : Int).toNat) = leValue (bytes.take 2) := rfl
  rw [hvalue]
  split
  · split
    · rfl
    · rw [hsame _ (by simp) (by omega)]
  · split
    · split
      · rfl
      · rw [hsame _ (by simp) (by omega)]
    · split
      · split
        · rfl
        · rw [hsame _ (by simp) (by omega)]
      · rfl

-- ---------------------------------------------------------------------------
-- Paths
-- ---------------------------------------------------------------------------

theorem sunPath_header (hheader : header.length = 2) (text : List UInt8) :
    sunPath (header ++ text) =
      if text.getD 0 0 = 0 then .error (-EOPNOTSUPP)
      else
        match String.fromUTF8? ⟨(text.takeWhile (· ≠ 0)).toArray⟩ with
        | some path => .ok (.unix path)
        | none => .error (-EINVAL) := by
  have hthird : (header ++ text).getD 2 0 = text.getD 0 0 := by
    rw [List.getD_eq_getElem?_getD, List.getElem?_append_right (by omega), hheader, List.getD_eq_getElem?_getD]
  have hdrop : (header ++ text).drop 2 = text := by
    rw [← hheader, List.drop_left]
  by_cases hzero : text.getD 0 0 = 0
  · simp only [sunPath, hthird, hzero, if_true]
  · cases hs : String.fromUTF8? ⟨(text.takeWhile (· ≠ 0)).toArray⟩ with
    | none => simp only [sunPath, hthird, hdrop, hzero, hs, if_false]
    | some path => simp only [sunPath, hthird, hdrop, hzero, hs, if_false]

theorem getD_append (hne : text ≠ []) (rest : List UInt8) : (text ++ rest).getD 0 0 = text.getD 0 0 := by
  obtain ⟨b, tail, rfl⟩ := List.exists_cons_of_ne_nil hne
  rfl

theorem getD_plain (hne : text ≠ []) (hplain : 0 ∉ text) : text.getD 0 0 ≠ 0 := by
  obtain ⟨b, tail, rfl⟩ := List.exists_cons_of_ne_nil hne
  intro hzero
  exact hplain (hzero ▸ List.mem_cons_self)

/-- A path that ends at a NUL or at the end of its struct. -/
theorem sunPath_text (hheader : header.length = 2) (hne : text ≠ []) (hplain : 0 ∉ text) (k : Nat) :
    sunPath (header ++ (text ++ List.replicate k 0)) =
      match String.fromUTF8? ⟨text.toArray⟩ with
      | some path => .ok (.unix path)
      | none => .error (-EINVAL) := by
  have htake : (text ++ List.replicate k 0).takeWhile (· ≠ 0) = text := by
    cases k with
    | zero => rw [List.replicate_zero, List.append_nil, takeWhile_plain hplain]
    | succ k => rw [List.replicate_succ, takeWhile_nul hplain]
  rw [sunPath_header hheader, getD_append hne, if_neg (getD_plain hne hplain), htake]

theorem sunPath_nul (hheader : header.length = 2) (h : 0 ∈ path) (rest : List UInt8) :
    sunPath (header ++ (path ++ rest)) = sunPath (header ++ path) := by
  obtain ⟨tail, hpath, hplain⟩ := eq_takeWhile_nul h
  have htake : (path ++ rest).takeWhile (· ≠ 0) = path.takeWhile (· ≠ 0) := by
    conv_lhs => rw [hpath]
    rw [List.append_assoc, List.cons_append, takeWhile_nul hplain]
  rw [sunPath_header hheader, sunPath_header hheader, getD_append (List.ne_nil_of_mem h), htake]

theorem sunPath_broken (hheader : header.length = 2) (hne : path ≠ []) (hplain : 0 ∉ path) {rest : List UInt8}
    (h : ∀ more : List UInt8, more.length ≤ rest.length → 0 ∉ more → ¬ Utf8 (path ++ more)) :
    sunPath (header ++ (path ++ rest)) = .error (-EINVAL) := by
  have htake : (path ++ rest).takeWhile (· ≠ 0) = path ++ rest.takeWhile (· ≠ 0) :=
    List.takeWhile_append_of_pos fun b hb => decide_eq_true fun hzero => hplain (hzero ▸ hb)
  have hmore : 0 ∉ rest.takeWhile (· ≠ 0) := fun hmem => by simpa using List.mem_takeWhile_imp hmem
  have hnone : String.fromUTF8? ⟨(path ++ rest.takeWhile (· ≠ 0)).toArray⟩ = none := by
    cases hs : String.fromUTF8? ⟨(path ++ rest.takeWhile (· ≠ 0)).toArray⟩ with
    | none => rfl
    | some s =>
      have hutf8 := utf8_iff.mpr ⟨s, fromUTF8?_eq_some.mp hs⟩
      exact absurd hutf8 (h _ (List.takeWhile_prefix _).length_le hmore)
  rw [sunPath_header hheader, getD_append hne, if_neg (getD_plain hne hplain), htake, hnone]

theorem sunPath_ne {text' : List UInt8} (hheader : header.length = 2) (hne : text ≠ []) (hplain : 0 ∉ text)
    (hne' : text' ≠ []) (hplain' : 0 ∉ text') (hutf8 : Utf8 text) (hdiffer : text ≠ text') (k k' : Nat) :
    sunPath (header ++ (text ++ List.replicate k 0)) ≠ sunPath (header ++ (text' ++ List.replicate k' 0)) := by
  obtain ⟨s, htext⟩ := utf8_iff.mp hutf8
  rw [sunPath_text hheader hne hplain, sunPath_text hheader hne' hplain', fromUTF8?_eq_some.mpr htext]
  dsimp only
  split
  · rename_i s' hs'
    intro h
    cases h
    exact hdiffer (htext.trans (fromUTF8?_eq_some.mp hs').symm)
  · intro h
    cases h

-- ---------------------------------------------------------------------------
-- Settled by its bytes
-- ---------------------------------------------------------------------------

theorem leValue_pair (a b : UInt8) : leValue [a, b] = a.toNat + 256 * b.toNat := by
  simp [leValue]

theorem family_unknown {family : Nat} (hfamily : family < 256) (hheader : header.length = 2)
    (h : leValue (header.take 1) ≠ family) : leValue header ≠ family := by
  obtain ⟨a, b, rfl⟩ := List.length_eq_two.mp hheader
  have htake : leValue ([a, b].take 1) = a.toNat := by simp [leValue]
  have hlt := a.toNat_lt
  rw [htake] at h
  rw [leValue_pair]
  omega

theorem parse_one_unknown (hptr : ptr ≠ 0) (h : guestSlice memory ptr 1 = .ok bytes) (hfits : Fits memory ptr 2)
    (hunix : leValue bytes ≠ AF_UNIX) (hin : leValue bytes ≠ AF_INET) (hin6 : leValue bytes ≠ AF_INET6) :
    parseSockaddr memory ptr 1 = .error (-EAFNOSUPPORT) := by
  obtain ⟨header, hheader⟩ := hfits.slice
  have htake : header.take 1 = bytes := Except.ok.inj ((slice_take hheader (by decide) (by decide)).symm.trans h)
  have hlength : header.length = 2 := slice_length hheader
  rw [parse_one hptr hheader, if_neg]
  rintro (hfamily | hfamily | hfamily)
  · exact family_unknown (by decide) hlength (htake ▸ hin) hfamily
  · exact family_unknown (by decide) hlength (htake ▸ hin6) hfamily
  · exact family_unknown (by decide) hlength (htake ▸ hunix) hfamily

theorem struct_slice (h : guestSlice memory ptr len = .ok bytes) (hlen : 3 ≤ len) (hle : len ≤ SOCKADDR_UN_SIZE)
    (hfits : Fits memory ptr SOCKADDR_UN_SIZE) : ∃ rest : List UInt8,
      (rest.length : Int) = SOCKADDR_UN_SIZE - len ∧
        guestSlice memory ptr SOCKADDR_UN_SIZE = .ok (bytes.take 2 ++ (bytes.drop 2 ++ rest)) := by
  obtain ⟨whole, hwhole⟩ := hfits.slice
  have htake : whole.take len.toNat = bytes :=
    Except.ok.inj ((slice_take hwhole (by omega) hle).symm.trans h)
  have hlength := slice_length hwhole
  refine ⟨whole.drop len.toNat, ?_, ?_⟩
  · rw [List.length_drop]
    omega
  · rw [hwhole, ← List.append_assoc, List.take_append_drop, ← htake, List.take_append_drop]

theorem parse_one_same (hptr : ptr ≠ 0) (h : guestSlice memory ptr 1 = .ok bytes)
    (h' : guestSlice memory' ptr 1 = .ok bytes) (hs : 2 ^ 32 < ptr + 2 ∨
      (leValue bytes ≠ AF_UNIX ∧ leValue bytes ≠ AF_INET ∧ leValue bytes ≠ AF_INET6) ∧
        ¬ Crosses (ptr + 1) (ptr + 2)) : parseSockaddr memory' ptr 1 = parseSockaddr memory ptr 1 := by
  rcases hs with htop | ⟨⟨hunix, hin, hin6⟩, hcross⟩
  · have hfault {m : Option MemoryKind} (hm : guestSlice m ptr 1 = .ok bytes) :
        parseSockaddr m ptr 1 = .error (-EFAULT) := by
      rcases fits_or_fault (n := 2) (.of_slice hm) (by decide) with hfits | hfault
      · have := Fits.top hfits
        omega
      · exact parse_fault hptr (by decide) hfault
    rw [hfault h, hfault h']
  · rw [parse_one_unknown hptr h (Fits.whole (.of_slice h) (by decide) hcross) hunix hin hin6,
      parse_one_unknown hptr h' (Fits.whole (.of_slice h') (by decide) hcross) hunix hin hin6]

theorem parse_unix_same (hptr : ptr ≠ 0) (hlen : 3 ≤ len) (hle : len ≤ SOCKADDR_UN_SIZE)
    (h : guestSlice memory ptr len = .ok bytes) (h' : guestSlice memory' ptr len = .ok bytes)
    (hfamily : leValue (bytes.take 2) = AF_UNIX) (hs : 2 ^ 32 < ptr + SOCKADDR_UN_SIZE ∨
      ¬ Crosses (ptr + len) (ptr + SOCKADDR_UN_SIZE) ∧ PathSettled len (bytes.drop 2)) :
    parseSockaddr memory' ptr len = parseSockaddr memory ptr len := by
  rw [parse_unix hptr hlen h hfamily, parse_unix hptr hlen h' hfamily]
  rcases hs with htop | ⟨hcross, hpath⟩
  · have hfault {m : Option MemoryKind} (hm : guestSlice m ptr len = .ok bytes) :
        guestSlice m ptr SOCKADDR_UN_SIZE = .error (-EFAULT) := by
      rcases fits_or_fault (n := SOCKADDR_UN_SIZE) (.of_slice hm) (by simp) with hfits | hfault
      · have := Fits.top hfits
        omega
      · exact hfault
    rw [hfault h, hfault h']
  · have hlength := slice_length h
    have hheader : (bytes.take 2).length = 2 := by
      rw [List.length_take]
      omega
    have hne : bytes.drop 2 ≠ [] := by
      apply List.ne_nil_of_length_pos
      rw [List.length_drop]
      omega
    obtain ⟨rest, hrest, hwhole⟩ := struct_slice h hlen hle (Fits.whole (.of_slice h) (by simp) hcross)
    obtain ⟨rest', hrest', hwhole'⟩ := struct_slice h' hlen hle (Fits.whole (.of_slice h') (by simp) hcross)
    rw [hwhole, hwhole']
    by_cases hnul : 0 ∈ bytes.drop 2
    · exact (sunPath_nul hheader hnul rest').trans (sunPath_nul hheader hnul rest).symm
    · have hbroken := hpath.resolve_left hnul
      have hinval {rest : List UInt8} (hrest : (rest.length : Int) = SOCKADDR_UN_SIZE - len) :
          sunPath (bytes.take 2 ++ (bytes.drop 2 ++ rest)) = .error (-EINVAL) :=
        sunPath_broken hheader hne hnul fun more hmore => hbroken more (by omega)
      exact (hinval hrest').trans (hinval hrest).symm

theorem settled_same (h : guestSlice memory ptr len = .ok bytes) (h' : guestSlice memory' ptr len = .ok bytes)
    (hs : Settled ptr len bytes) : parseSockaddr memory' ptr len = parseSockaddr memory ptr len := by
  by_cases hnothing : ptr = 0 ∨ len ≤ 0
  · exact parse_nothing hnothing ..
  · obtain ⟨hptr, hlen⟩ := not_or.mp hnothing
    rcases hs with hzero | hle | ⟨rfl, hone⟩ | ⟨htwo, hs⟩
    · exact absurd hzero hptr
    · exact absurd hle hlen
    · exact parse_one_same hptr h h' hone
    · by_cases hinet : leValue (bytes.take 2) ≠ AF_UNIX ∨ len < 3 ∨ SOCKADDR_UN_SIZE ≤ len
      · exact parse_inet hptr htwo h h' hinet
      · simp only [not_or, not_not] at hinet
        obtain ⟨hfamily, hthree, hshort⟩ := hinet
        refine parse_unix_same hptr (by omega) (by omega) h h' hfamily ?_
        rcases hs with hs | hs | hs | hs
        · exact absurd hfamily hs
        · exact absurd hs hthree
        · exact absurd hs hshort
        · exact hs

-- ---------------------------------------------------------------------------
-- Not settled
-- ---------------------------------------------------------------------------

theorem memory_followed (bytes rest : List UInt8) (hptr : 0 ≤ ptr) (hlength : (bytes.length : Int) = len)
    (hroom : ptr + len + rest.length ≤ 2 ^ 32) : ∃ memory, guestSlice memory ptr len = .ok bytes ∧
      guestSlice memory ptr (len + rest.length) = .ok (bytes ++ rest) := by
  have hwhole : ((bytes ++ rest).length : Int) = len + rest.length := by
    rw [List.length_append]
    omega
  obtain ⟨memory, hslice, -⟩ := memory_with (bytes ++ rest) 65536 (le_refl _) hptr (by
    rw [hwhole]
    simp only [PAGE_SIZE]
    omega)
  rw [hwhole] at hslice
  refine ⟨memory, ?_, hslice⟩
  have hprefix := slice_take hslice (by omega : 0 ≤ len) (by omega)
  rwa [List.take_left' (by omega)] at hprefix

theorem memory_ending (bytes : List UInt8) (hptr : 0 ≤ ptr) (hlength : (bytes.length : Int) = len)
    (htop : ptr + n ≤ 2 ^ 32) (hn : 0 ≤ n) (hcross : Crosses (ptr + len) (ptr + n)) :
    ∃ memory, guestSlice memory ptr len = .ok bytes ∧ guestSlice memory ptr n = .error (-EFAULT) := by
  obtain ⟨pages, hstart, hstop⟩ := hcross
  have hpages : pages ≤ 65536 := by
    simp only [PAGE_SIZE] at hstop
    omega
  obtain ⟨memory, hslice, hfits⟩ := memory_with bytes pages hpages hptr (by rw [hlength]; exact hstart)
  rw [hlength] at hslice
  refine ⟨memory, hslice, (fits_or_fault (.of_slice hslice) hn).resolve_left fun h => ?_⟩
  have := (hfits n hn).mp h
  omega

/-- Every memory with the bytes gives the result of this one. -/
def SameEverywhere (memory : Option MemoryKind) (ptr len : Int) (bytes : List UInt8) : Prop :=
  ∀ memory', guestSlice memory' ptr len = .ok bytes → parseSockaddr memory' ptr len = parseSockaddr memory ptr len

theorem SameEverywhere.pair {m m' : Option MemoryKind} (hsame : SameEverywhere memory ptr len bytes)
    (h : guestSlice m ptr len = .ok bytes) (h' : guestSlice m' ptr len = .ok bytes) :
    parseSockaddr m ptr len = parseSockaddr m' ptr len :=
  (hsame m h).trans (hsame m' h').symm

/-- Of one byte, the second one decides if the first can begin a known family. -/
theorem SameEverywhere.unknown {b : UInt8} (hsame : SameEverywhere memory ptr 1 [b]) (hptr : 0 < ptr)
    (htop : ptr + 2 ≤ 2 ^ 32) :
    leValue [b] ≠ AF_UNIX ∧ leValue [b] ≠ AF_INET ∧ leValue [b] ≠ AF_INET6 := by
  have hroom : ptr + 1 + ([0] : List UInt8).length ≤ 2 ^ 32 := by
    rw [List.length_singleton]
    omega
  obtain ⟨low, hlow, hheader⟩ := memory_followed [b] [0] hptr.le rfl hroom
  obtain ⟨high, hhigh, hheader'⟩ := memory_followed [b] [1] hptr.le rfl hroom
  have hequal := hsame.pair hlow hhigh
  rw [parse_one hptr.ne' hheader, parse_one hptr.ne' hheader'] at hequal
  have hbig : 256 ≤ leValue ([b] ++ [1]) := by
    rw [List.singleton_append, leValue_pair]
    exact Nat.le_add_left ..
  have hunknown : ¬ (leValue ([b] ++ [1]) = AF_INET ∨ leValue ([b] ++ [1]) = AF_INET6 ∨
      leValue ([b] ++ [1]) = AF_UNIX) := by
    simp only [AF_INET, AF_INET6, AF_UNIX]
    omega
  have hnot : ¬ (leValue ([b] ++ [0]) = AF_INET ∨ leValue ([b] ++ [0]) = AF_INET6 ∨
      leValue ([b] ++ [0]) = AF_UNIX) := by
    intro hset
    rw [if_pos hset, if_neg hunknown] at hequal
    exact absurd (Except.error.inj hequal) (by decide)
  have hb : leValue ([b] ++ [0]) = leValue [b] := by simp [leValue]
  simp only [not_or, hb] at hnot
  exact ⟨hnot.2.2, hnot.1, hnot.2.1⟩

/-- With memory that may end behind the byte, it does. -/
theorem SameEverywhere.one_end {b : UInt8} (hsame : SameEverywhere memory ptr 1 [b]) (hptr : 0 < ptr)
    (htop : ptr + 2 ≤ 2 ^ 32) : ¬ Crosses (ptr + 1) (ptr + 2) := by
  intro hcross
  have hroom : ptr + 1 + ([0] : List UInt8).length ≤ 2 ^ 32 := by
    rw [List.length_singleton]
    omega
  obtain ⟨long, hlong, hheader⟩ := memory_followed [b] [0] hptr.le rfl hroom
  obtain ⟨short, hshort, hfault⟩ := memory_ending [b] hptr.le rfl htop (by decide) hcross
  have hequal := hsame.pair hlong hshort
  rw [parse_one hptr.ne' hheader, parse_fault hptr.ne' (by decide) hfault] at hequal
  have herror := Except.error.inj hequal
  split at herror
  · exact absurd herror (by decide)
  · exact absurd herror (by decide)

theorem sunPath_no_fault (bytes : List UInt8) : sunPath bytes ≠ .error (-EFAULT) := by
  have heopnotsupp : -EOPNOTSUPP ≠ -EFAULT := by decide
  have heinval : -EINVAL ≠ -EFAULT := by decide
  unfold sunPath
  split
  · exact fun h => heopnotsupp (Except.error.inj h)
  · split
    · exact fun h => by cases h
    · exact fun h => heinval (Except.error.inj h)

/-- A Unix address that is shorter than its struct, with room for the struct. -/
structure ShortUnix (ptr len : Int) (bytes : List UInt8) : Prop where
  low : 0 < ptr
  long : 3 ≤ len
  short : len < SOCKADDR_UN_SIZE
  top : ptr + SOCKADDR_UN_SIZE ≤ 2 ^ 32
  length : (bytes.length : Int) = len
  family : leValue (bytes.take 2) = AF_UNIX

/-- Whatever fills the struct, the result is that of this memory. -/
theorem SameEverywhere.filled (hsame : SameEverywhere memory ptr len bytes) (hu : ShortUnix ptr len bytes)
    (rest : List UInt8) (hrest : len + rest.length = SOCKADDR_UN_SIZE) :
    parseSockaddr memory ptr len = sunPath (bytes.take 2 ++ (bytes.drop 2 ++ rest)) := by
  have htop := hu.top
  obtain ⟨m, hslice, hwhole⟩ := memory_followed bytes rest hu.low.le hu.length (by omega)
  rw [hrest] at hwhole
  rw [← hsame m hslice, parse_unix hu.low.ne' hu.long hslice hu.family, hwhole, ← List.append_assoc,
    List.take_append_drop]
  rfl

theorem SameEverywhere.struct_end (hsame : SameEverywhere memory ptr len bytes) (hu : ShortUnix ptr len bytes) :
    ¬ Crosses (ptr + len) (ptr + SOCKADDR_UN_SIZE) := by
  intro hcross
  have hshort := hu.short
  have hlong := hu.long
  obtain ⟨m, hslice, hfault⟩ := memory_ending bytes hu.low.le hu.length hu.top (by simp) hcross
  have hwhole := hsame.filled hu (List.replicate (SOCKADDR_UN_SIZE - len.toNat) 0) (by
    rw [List.length_replicate]
    omega)
  rw [← hsame m hslice, parse_unix hu.low.ne' hu.long hslice hu.family, hfault] at hwhole
  exact sunPath_no_fault _ hwhole.symm

/-- A path that can go on as a string gives one result with its NUL here and another with
its NUL there. -/
theorem SameEverywhere.settles_path (hsame : SameEverywhere memory ptr len bytes) (hu : ShortUnix ptr len bytes) :
    PathSettled len (bytes.drop 2) := by
  have hshort := hu.short
  have hlong := hu.long
  have hlength := hu.length
  have hheader : (bytes.take 2).length = 2 := by
    rw [List.length_take]
    omega
  have hne : bytes.drop 2 ≠ [] := by
    apply List.ne_nil_of_length_pos
    rw [List.length_drop]
    omega
  by_contra hnot
  simp only [PathSettled, not_or, not_forall, not_not] at hnot
  obtain ⟨hplain, more, hmore, hplain', hutf8⟩ := hnot
  -- The same path, ended elsewhere.
  obtain ⟨other, hother, hplainOther, hdiffer⟩ : ∃ other : List UInt8,
      (other.length : Int) ≤ SOCKADDR_UN_SIZE - len ∧ 0 ∉ other ∧ more ≠ other := by
    cases more with
    | nil => exact ⟨[97], by rw [List.length_singleton]; omega, by decide, by simp⟩
    | cons b tail => exact ⟨[], by rw [List.length_nil]; omega, by simp, by simp⟩
  have hresult (rest : List UInt8) (hrest : (rest.length : Int) ≤ SOCKADDR_UN_SIZE - len) :
      parseSockaddr memory ptr len = sunPath (bytes.take 2 ++ (bytes.drop 2 ++ rest ++
        List.replicate (SOCKADDR_UN_SIZE - len.toNat - rest.length) 0)) := by
    rw [List.append_assoc]
    refine hsame.filled hu _ ?_
    rw [List.length_append, List.length_replicate]
    omega
  have htext {rest : List UInt8} (hrest : 0 ∉ rest) : bytes.drop 2 ++ rest ≠ [] ∧ 0 ∉ bytes.drop 2 ++ rest :=
    ⟨List.append_ne_nil_of_left_ne_nil hne rest, by simp only [List.mem_append, not_or]; exact ⟨hplain, hrest⟩⟩
  refine sunPath_ne hheader (htext hplain').1 (htext hplain').2 (htext hplainOther).1 (htext hplainOther).2 hutf8
    (fun h => hdiffer (List.append_cancel_left h)) _ _ ((hresult more hmore).symm.trans (hresult other hother))

/-- Settled bytes are those that give the same result in every memory that has them. -/
theorem parse_alone_iff (h : guestSlice memory ptr len = .ok bytes) :
    (∀ memory', guestSlice memory' ptr len = .ok bytes →
      parseSockaddr memory' ptr len = parseSockaddr memory ptr len) ↔ Settled ptr len bytes := by
  constructor
  · intro hsame
    obtain ⟨mem, -, hlow, -, -⟩ := fits_iff.mp (.of_slice h)
    by_cases hnothing : ptr = 0 ∨ len ≤ 0
    · exact hnothing.elim .inl fun hle => .inr (.inl hle)
    · have hptr : 0 < ptr := by omega
      by_cases hone : len = 1
      · subst hone
        obtain ⟨b, rfl⟩ := List.length_eq_one_iff.mp (slice_length h)
        refine .inr (.inr (.inl ⟨rfl, ?_⟩))
        by_cases htop : 2 ^ 32 < ptr + 2
        · exact .inl htop
        · have hroom : ptr + 2 ≤ 2 ^ 32 := not_lt.mp htop
          exact .inr ⟨SameEverywhere.unknown hsame hptr hroom, SameEverywhere.one_end hsame hptr hroom⟩
      · refine .inr (.inr (.inr ⟨by omega, ?_⟩))
        by_contra hnot
        simp only [not_or, not_not, not_lt, not_le] at hnot
        obtain ⟨hfamily, hlong, hshort, htop, hnot⟩ := hnot
        have hlength := slice_length h
        have hu : ShortUnix ptr len bytes := ⟨hptr, hlong, hshort, htop, by omega, hfamily⟩
        exact hnot ⟨SameEverywhere.struct_end hsame hu, SameEverywhere.settles_path hsame hu⟩
  · intro hs memory' h'
    exact settled_same h h' hs

/-- An address with its NUL inside its 5 bytes is `/s` in every memory. -/
theorem parse_alone_unix :
    guestSlice (structMemory "/s") 16 5 = .ok [1, 0, 47, 115, 0] ∧
      ∀ memory', guestSlice memory' 16 5 = .ok [1, 0, 47, 115, 0] →
        parseSockaddr memory' 16 5 = parseSockaddr (structMemory "/s") 16 5 := by
  have hbytes : (sockaddrUn (some "/s")).take 5 = [1, 0, 47, 115, 0] := by decide
  have hslice : guestSlice (structMemory "/s") 16 5 = .ok [1, 0, 47, 115, 0] := by
    rw [← hbytes]
    exact slice_take (structMemory_slice "/s") (by decide) (by decide)
  have hcross : ¬ Crosses (16 + 5) (16 + SOCKADDR_UN_SIZE) := by
    rintro ⟨n, hstart, hstop⟩
    simp only [PAGE_SIZE, SOCKADDR_UN_SIZE] at hstart hstop
    omega
  have hpath : PathSettled 5 [47, 115, 0] := .inl (by decide)
  exact ⟨hslice, (parse_alone_iff hslice).mpr
    (.inr (.inr (.inr ⟨by decide, .inr (.inr (.inr (.inr ⟨hcross, hpath⟩)))⟩)))⟩

/-- An address of 4 bytes is `/s` in one memory, and goes on in another. -/
theorem bytes_behind_the_address :
    guestSlice (structMemory "/s") 16 4 = .ok [1, 0, 47, 115] ∧
      guestSlice (structMemory "/sx") 16 4 = .ok [1, 0, 47, 115] ∧
      parseSockaddr (structMemory "/s") 16 4 = .ok (.unix "/s") ∧
      parseSockaddr (structMemory "/sx") 16 4 = .ok (.unix "/sx") := by
  have hslice (path : PathBuf) (hpath : (sockaddrUn (some path)).take 4 = [1, 0, 47, 115]) :
      guestSlice (structMemory path) 16 4 = .ok [1, 0, 47, 115] := by
    rw [← hpath]
    exact slice_take (structMemory_slice path) (by decide) (by decide)
  have hparse (path : PathBuf) (hpath : (sockaddrUn (some path)).take 4 = [1, 0, 47, 115])
      (hencodable : SockAddrs.Encodable (.unix path)) : parseSockaddr (structMemory path) 16 4 = .ok (.unix path) := by
    rw [parse_unix (by decide) (by decide) (hslice path hpath) (by decide), structMemory_slice]
    exact SockAddrs.sunPath_sockaddrUn hencodable
  have hs : (sockaddrUn (some "/s")).take 4 = [1, 0, 47, 115] := by decide
  have hsx : (sockaddrUn (some "/sx")).take 4 = [1, 0, 47, 115] := by decide
  refine ⟨hslice _ hs, hslice _ hsx, hparse _ hs ?_, hparse _ hsx ?_⟩
  · exact ⟨by decide, by decide, by decide⟩
  · exact ⟨by decide, by decide, by decide⟩

end EdgeLibos.Sys.ParseAlone
