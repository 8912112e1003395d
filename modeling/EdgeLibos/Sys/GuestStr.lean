import EdgeLibos.Lib.Utf8
import EdgeLibos.Sys.Stdio

/-!
# Strings in guest memory

`guest_str` wants all of the `max_len` bytes it may look at to be in memory, and takes
all of them where none is NUL. What a NUL-terminated string is does not depend on what
comes after the NUL.
-/

namespace EdgeLibos.Sys

open Errno Lib

variable {m : LinearMemory} {bytes : List UInt8} {s : String}

def strBytes (s : String) : List UInt8 := s.toByteArray.data.toList

/-- The string `s` lies at `ptr`, with its NUL among the first `maxLen` bytes and in
memory. -/
def Terminated (m : LinearMemory) (ptr maxLen : Int) (s : String) : Prop :=
  0 ≤ ptr ∧ ((strBytes s).length : Int) < maxLen ∧ 0 ∉ strBytes s ∧
    m.load ptr.toNat ((strBytes s).length + 1) = some (strBytes s ++ [0])

/-- The string is returned exactly where it is terminated. -/
def StrLaw (memory : MemoryKind) (ptr maxLen : Int) : Prop :=
  ∀ s, guestStr (some memory) ptr maxLen = .ok s ↔ Terminated memory.mem ptr maxLen s

/-- What memory has of the bytes that may be looked at. -/
def window (m : LinearMemory) (ptr maxLen : Int) : List UInt8 :=
  if ptr < 0 then [] else (m.data.drop ptr.toNat).take maxLen.toNat

def Inside (memory : MemoryKind) (ptr maxLen : Int) : Prop :=
  memory = .owned memory.mem ∧ 0 ≤ ptr ∧ 0 ≤ maxLen ∧ ptr.toNat + maxLen.toNat ≤ memory.mem.size

theorem fromUTF8?_eq_some : String.fromUTF8? ⟨bytes.toArray⟩ = some s ↔ bytes = strBytes s := by
  constructor
  · intro h
    unfold String.fromUTF8? at h
    split at h
    · cases h
      rfl
    · cases h
  · rintro rfl
    have harray : (⟨(strBytes s).toArray⟩ : ByteArray) = s.toByteArray := by
      refine ByteArray.ext ?_
      rw [strBytes, Array.toArray_toList]
    rw [harray, String.fromUTF8?, dif_pos s.isValidUTF8]
    rfl

theorem utf8_iff : Utf8 bytes ↔ ∃ s, bytes = strBytes s := by
  constructor
  · rintro ⟨text, rfl⟩
    exact ⟨⟨text.utf8Encode, ⟨text, rfl⟩⟩, List.toList_data_toByteArray.symm⟩
  · rintro ⟨s, rfl⟩
    obtain ⟨text, htext⟩ := s.isValidUTF8
    refine ⟨text, ?_⟩
    rw [strBytes, htext]
    exact List.toList_data_toByteArray

-- ---------------------------------------------------------------------------
-- What is returned
-- ---------------------------------------------------------------------------

theorem guestStr_inside (h : Inside memory ptr maxLen) :
    guestStr (some memory) ptr maxLen = .ok s ↔
      (window memory.mem ptr maxLen).takeWhile (· ≠ 0) = strBytes s := by
  obtain ⟨howned, hptr, hmax, hfits⟩ := h
  have hslice : guestSlice (some memory) ptr maxLen = .ok (window memory.mem ptr maxLen) := by
    rw [guestSlice, if_neg (by omega), howned]
    simp only [ownedOf]
    rw [if_pos hfits, window, if_neg (Int.not_lt.mpr hptr)]
    rfl
  rw [guestStr, hslice]
  simp only
  cases hutf : String.fromUTF8? ⟨((window memory.mem ptr maxLen).takeWhile (· ≠ 0)).toArray⟩ with
  | none =>
    refine iff_of_false (fun h => ?_) fun h => ?_
    · cases h
    · cases hutf.symm.trans (fromUTF8?_eq_some.mpr h)
  | some t =>
    rw [← fromUTF8?_eq_some, hutf, Except.ok.injEq, Option.some.injEq]

theorem guestStr_outside (h : ¬ Inside memory ptr maxLen) : guestStr (some memory) ptr maxLen ≠ .ok s := by
  intro hok
  unfold guestStr at hok
  split at hok
  · cases hok
  · rename_i bytes hslice
    obtain ⟨mem, howned, hptr, hmax, hfits, -⟩ := guestSlice_ok hslice
    cases howned
    exact h ⟨rfl, hptr, hmax, hfits⟩

theorem terminated_iff : Terminated m ptr maxLen s ↔
    0 ∈ window m ptr maxLen ∧ (window m ptr maxLen).takeWhile (· ≠ 0) = strBytes s := by
  constructor
  · rintro ⟨hptr, hlen, hplain, hload⟩
    unfold LinearMemory.load at hload
    split at hload
    · have hfirst := Option.some.inj hload
      have hwindow : (window m ptr maxLen).take ((strBytes s).length + 1) = strBytes s ++ [0] := by
        rw [window, if_neg (Int.not_lt.mpr hptr), List.take_take, Nat.min_eq_left (by omega), hfirst]
      have hsplit := List.take_append_drop ((strBytes s).length + 1) (window m ptr maxLen)
      rw [hwindow, List.append_assoc, List.singleton_append] at hsplit
      rw [← hsplit]
      exact ⟨List.mem_append_right _ List.mem_cons_self, takeWhile_nul hplain⟩
    · cases hload
  · rintro ⟨hmem, htext⟩
    obtain ⟨tail, hsplit, hplain⟩ := eq_takeWhile_nul hmem
    rw [htext] at hsplit hplain
    have hptr : 0 ≤ ptr := by
      by_contra hneg
      rw [window, if_pos (Int.not_le.mp hneg)] at hmem
      cases hmem
    have hlength := congrArg List.length hsplit
    rw [window, if_neg (Int.not_lt.mpr hptr), List.length_take, List.length_drop, List.length_append,
      List.length_cons] at hlength
    have hsize : m.size = m.data.length := rfl
    refine ⟨hptr, by omega, hplain, ?_⟩
    have htake : (m.data.drop ptr.toNat).take ((strBytes s).length + 1) =
        (window m ptr maxLen).take ((strBytes s).length + 1) := by
      rw [window, if_neg (Int.not_lt.mpr hptr), List.take_take, Nat.min_eq_left (by omega)]
    rw [LinearMemory.load_some (by omega), htake, hsplit, ← List.singleton_append, ← List.append_assoc,
      List.take_left' (by rw [List.length_append, List.length_singleton])]

-- ---------------------------------------------------------------------------
-- Where it is right
-- ---------------------------------------------------------------------------

/-- Where all of the bytes are there, one of them is NUL or they are not text; elsewhere
there is no terminated text among those that are. -/
def StrCondition (memory : MemoryKind) (ptr maxLen : Int) : Prop :=
  (Inside memory ptr maxLen → 0 ∈ window memory.mem ptr maxLen ∨ ¬ Utf8 (window memory.mem ptr maxLen)) ∧
    (¬ Inside memory ptr maxLen → 0 ∉ window memory.mem ptr maxLen ∨
      ¬ Utf8 ((window memory.mem ptr maxLen).takeWhile (· ≠ 0)))

theorem strLaw_inside_iff (h : Inside memory ptr maxLen) :
    StrLaw memory ptr maxLen ↔
      0 ∈ window memory.mem ptr maxLen ∨ ¬ Utf8 (window memory.mem ptr maxLen) := by
  unfold StrLaw
  simp only [guestStr_inside h, terminated_iff]
  by_cases hnul : 0 ∈ window memory.mem ptr maxLen
  · exact iff_of_true (fun s => ⟨fun hs => ⟨hnul, hs⟩, And.right⟩) (.inl hnul)
  · rw [takeWhile_plain hnul]
    constructor
    · intro hlaw
      refine .inr fun htext => ?_
      obtain ⟨s, hs⟩ := utf8_iff.mp htext
      exact hnul ((hlaw s).mp hs).1
    · intro hcond s
      refine iff_of_false (fun hs => ?_) fun hs => hnul hs.1
      exact (hcond.resolve_left hnul) (utf8_iff.mpr ⟨s, hs⟩)

theorem strLaw_outside_iff (h : ¬ Inside memory ptr maxLen) :
    StrLaw memory ptr maxLen ↔ 0 ∉ window memory.mem ptr maxLen ∨
      ¬ Utf8 ((window memory.mem ptr maxLen).takeWhile (· ≠ 0)) := by
  unfold StrLaw
  simp only [guestStr_outside h, terminated_iff, false_iff]
  constructor
  · intro hlaw
    by_contra hcond
    obtain ⟨hnul, htext⟩ := not_or.mp hcond
    obtain ⟨s, hs⟩ := utf8_iff.mp (not_not.mp htext)
    exact hlaw s ⟨not_not.mp hnul, hs⟩
  · rintro hcond s ⟨hnul, hs⟩
    rcases hcond with hcond | hcond
    · exact hcond hnul
    · exact hcond (utf8_iff.mpr ⟨s, hs⟩)

/-- Every string is returned exactly where it is terminated under this condition only. -/
theorem guest_str_iff (memory : MemoryKind) (ptr maxLen : Int) :
    StrLaw memory ptr maxLen ↔ StrCondition memory ptr maxLen := by
  by_cases h : Inside memory ptr maxLen
  · rw [strLaw_inside_iff h]
    exact ⟨fun hc => ⟨fun _ => hc, fun hn => absurd h hn⟩, fun hc => hc.1 h⟩
  · rw [strLaw_outside_iff h]
    exact ⟨fun hc => ⟨fun hi => absurd hi h, fun _ => hc⟩, fun hc => hc.2 h⟩

def letterPage : LinearMemory := .filled 97 1 1 LinearMemory.one_page_fits LinearMemory.one_le_top

theorem letterPage_size : letterPage.size = 65536 := LinearMemory.filled_size

theorem window_replicate (h : m.data = List.replicate n b) (hptr : 0 ≤ ptr) :
    window m ptr maxLen = List.replicate (min maxLen.toNat (n - ptr.toNat)) b := by
  rw [window, if_neg (Int.not_lt.mpr hptr), h, List.drop_replicate, List.take_replicate]

/-- An empty string whose NUL is the last byte of memory is not found, and three letters
without a NUL are taken for a string. -/
theorem guest_str_wrong :
    ¬ StrLaw (.owned .zeroPage) 65535 4096 ∧ ¬ StrLaw (.owned letterPage) 0 3 := by
  constructor
  · have hout : ¬ Inside (.owned .zeroPage) 65535 4096 := by
      rintro ⟨-, -, -, hfits⟩
      rw [show (MemoryKind.owned .zeroPage).mem.size = 65536 from LinearMemory.zeroPage_size] at hfits
      exact absurd hfits (by decide)
    have hdata : LinearMemory.zeroPage.data = List.replicate 65536 0 := rfl
    have hwindow : window .zeroPage 65535 4096 = [0] := by
      rw [window_replicate hdata (by decide)]
      rfl
    rw [strLaw_outside_iff hout]
    rintro (hnul | htext)
    · exact hnul (hwindow ▸ List.mem_singleton_self 0)
    · exact htext ⟨[], by rw [show (MemoryKind.owned .zeroPage).mem = .zeroPage from rfl, hwindow]; rfl⟩
  · have hin : Inside (.owned letterPage) 0 3 := by
      refine ⟨rfl, le_refl 0, by decide, ?_⟩
      rw [show (MemoryKind.owned letterPage).mem.size = 65536 from letterPage_size]
      decide
    have hdata : letterPage.data = List.replicate 65536 97 := rfl
    have hwindow : window letterPage 0 3 = [97, 97, 97] := by
      rw [window_replicate hdata (by decide)]
      rfl
    rw [strLaw_inside_iff hin]
    rintro (hnul | htext)
    · rw [show (MemoryKind.owned letterPage).mem = letterPage from rfl, hwindow] at hnul
      exact absurd hnul (by decide)
    · refine htext ⟨['a', 'a', 'a'], ?_⟩
      rw [show (MemoryKind.owned letterPage).mem = letterPage from rfl, hwindow]
      decide

end EdgeLibos.Sys
