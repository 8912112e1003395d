import EdgeLibos.Kernel
import EdgeLibos.Lib.Json
import EdgeLibos.Lib.Utf8

/-!
# The marker line of the tracer

A conformance test leaves its verdict in its memory, and `trace` prints it as a line of JSON.
The line escapes backslashes and quotation marks, and no control character.
-/

namespace EdgeLibos.Cli

open Lib

def MARKER_ADDR : Nat := 4096
def MARKER_LEN : Nat := 64

def FAIL : List UInt8 := [0x46, 0x41, 0x49, 0x4C, 0x3A]
def SKIP : List UInt8 := [0x53, 0x4B, 0x49, 0x50, 0x3A]

/-- The reason, up to the first NUL. -/
def reasonBytes (buf : List UInt8) : List UInt8 := (buf.drop 5).takeWhile (· ≠ 0)

def readMarker (k : Kernel) : List Char :=
  match k.ownedMemory with
  | .error _ => []
  | .ok mem =>
    match mem.load MARKER_ADDR MARKER_LEN with
    | none => []
    | some buf =>
      if buf.take 4 = [0x50, 0x41, 0x53, 0x53] then "PASS".toList
      else if buf.take 5 = FAIL then "FAIL:".toList ++ lossyText (reasonBytes buf)
      else if buf.take 5 = SKIP then "SKIP:".toList ++ lossyText (reasonBytes buf)
      else []

/-- `str::replace`, of one character. -/
def replace (c : Char) (new text : List Char) : List Char := text.flatMap fun a => if a = c then new else [a]

def escape (marker : List Char) : List Char := replace '"' ['\\', '"'] (replace '\\' ['\\', '\\'] marker)

/-- The line, without the line break that ends it. -/
def markerLine (marker : List Char) : List Char := "\x7b\"marker\":\"".toList ++ escape marker ++ "\"\x7d".toList

-- ---------------------------------------------------------------------------
-- Escaping
-- ---------------------------------------------------------------------------

theorem escape_backslash (marker : List Char) : escape ('\\' :: marker) = '\\' :: '\\' :: escape marker := by
  simp [escape, replace]

theorem escape_quote (marker : List Char) : escape ('"' :: marker) = '\\' :: '"' :: escape marker := by
  simp [escape, replace]

theorem escape_char (hslash : c ≠ '\\') (hquote : c ≠ '"') (marker : List Char) :
    escape (c :: marker) = c :: escape marker := by
  simp [escape, replace, hslash, hquote]

/-- Drops the backslash of each escape. -/
def unescape : List Char → List Char
  | [] => []
  | [c] => [c]
  | c :: d :: rest => if c = '\\' then d :: unescape rest else c :: unescape (d :: rest)

theorem unescape_char (h : c ≠ '\\') (rest : List Char) : unescape (c :: rest) = c :: unescape rest := by
  cases rest with
  | nil => rfl
  | cons d rest => simp [unescape, h]

theorem unescape_escape (marker : List Char) : unescape (escape marker) = marker := by
  induction marker with
  | nil => rfl
  | cons c marker ih =>
    by_cases hslash : c = '\\'
    · subst hslash
      simp [escape_backslash, unescape, ih]
    by_cases hquote : c = '"'
    · subst hquote
      simp [escape_quote, unescape, ih]
    rw [escape_char hslash hquote, unescape_char hslash, ih]

theorem escape_injective : Function.Injective escape := by
  intro marker marker' h
  rw [← unescape_escape marker, h, unescape_escape]

theorem mem_escape : c ∈ escape marker ↔ c ∈ marker ∨ c = '\\' ∧ '"' ∈ marker := by
  induction marker with
  | nil => simp [escape, replace]
  | cons a marker ih =>
    by_cases hslash : a = '\\'
    · subst hslash
      simp [escape_backslash, ih, or_assoc]
    by_cases hquote : a = '"'
    · subst hquote
      simp [escape_quote, ih]
      tauto
    rw [escape_char hslash hquote, List.mem_cons, ih, List.mem_cons, List.mem_cons, or_assoc]
    simp [Ne.symm hquote]

theorem readString_escape_cons (h : 0x20 ≤ c.toNat) (marker rest : List Char) :
    Json.readString (escape (c :: marker) ++ rest) =
      (Json.readString (escape marker ++ rest)).map fun (s, rest) => (c :: s, rest) := by
  by_cases hslash : c = '\\'
  · subst hslash
    rw [escape_backslash]
    exact Json.readString_escaped rfl _
  by_cases hquote : c = '"'
  · subst hquote
    rw [escape_quote]
    exact Json.readString_escaped rfl _
  rw [escape_char hslash hquote]
  exact Json.readString_char h hquote hslash _

theorem readString_escape (h : ∀ c ∈ marker, 0x20 ≤ c.toNat) (rest : List Char) :
    Json.readString (escape marker ++ rest) = (Json.readString rest).map fun (s, rest) => (marker ++ s, rest) := by
  induction marker with
  | nil => cases hrest : Json.readString rest <;> simp [escape, replace, hrest]
  | cons c marker ih =>
    rw [List.forall_mem_cons] at h
    rw [readString_escape_cons h.1, ih h.2]
    cases Json.readString rest <;> rfl

theorem readString_escape_control (h : c ∈ marker) (hcontrol : c.toNat < 0x20) (rest : List Char) :
    Json.readString (escape marker ++ rest) = none := by
  induction marker with
  | nil => cases h
  | cons a marker ih =>
    by_cases ha : a.toNat < 0x20
    · obtain ⟨hquote, hslash⟩ := Json.control_ne ha
      rw [escape_char hslash hquote]
      exact Json.readString_control ha _
    · have hmem : c ∈ marker := by
        refine List.mem_of_ne_of_mem ?_ h
        rintro rfl
        exact ha hcontrol
      rw [readString_escape_cons (Nat.le_of_not_lt ha), ih hmem]
      rfl

-- ---------------------------------------------------------------------------
-- The line
-- ---------------------------------------------------------------------------

theorem line_head : "\x7b\"marker\":\"".toList = '\x7b' :: '"' :: "marker\":\"".toList := rfl

theorem markerLine_eq (marker : List Char) :
    markerLine marker = '\x7b' :: '"' :: ("marker\":\"".toList ++ (escape marker ++ ['"', '\x7d'])) := by
  have htail : "\"\x7d".toList = ['"', '\x7d'] := rfl
  unfold markerLine
  rw [line_head, htail, List.append_assoc, List.cons_append, List.cons_append]

theorem markerLine_injective : Function.Injective markerLine := by
  intro marker marker' h
  rw [markerLine_eq, markerLine_eq, List.cons_inj_right, List.cons_inj_right, List.append_right_inj,
    List.append_left_inj] at h
  exact escape_injective h

theorem readString_key (rest : List Char) :
    Json.readString ("marker\":\"".toList ++ rest) = some ("marker".toList, ':' :: '"' :: rest) := by
  have hkey : "marker\":\"".toList = ['m', 'a', 'r', 'k', 'e', 'r', '"', ':', '"'] := rfl
  rw [hkey]
  simp [Json.readString_char, Json.readString_quote]

theorem parse_markerLine (h : ∀ c ∈ marker, 0x20 ≤ c.toNat) :
    Json.parse (markerLine marker) = some (.object [("marker".toList, .string marker)]) := by
  have hvalue := readString_escape h ['"', '\x7d']
  rw [markerLine_eq]
  apply Json.parse_member (readString_key _)
  rw [hvalue]
  simp [Json.readString_quote]

theorem parse_markerLine_control (h : c ∈ marker) (hcontrol : c.toNat < 0x20) :
    Json.parse (markerLine marker) = none := by
  rw [markerLine_eq]
  exact Json.parse_member_none (readString_key _) (readString_escape_control h hcontrol _)

theorem newline_mem_markerLine (marker : List Char) : '\n' ∈ markerLine marker ↔ '\n' ∈ marker := by
  have hkey : "marker\":\"".toList = ['m', 'a', 'r', 'k', 'e', 'r', '"', ':', '"'] := rfl
  rw [markerLine_eq, hkey]
  simp [mem_escape]

-- ---------------------------------------------------------------------------
-- The markers a guest can leave
-- ---------------------------------------------------------------------------

/-- Where the marker region has a reason, no byte of it is a control character. -/
def CleanReason (k : Kernel) : Prop :=
  ∀ mem buf, k.ownedMemory = .ok mem → mem.load MARKER_ADDR MARKER_LEN = some buf →
    buf.take 5 = FAIL ∨ buf.take 5 = SKIP → ∀ b ∈ reasonBytes buf, 0x20 ≤ b

theorem take_five_ne {buf : List UInt8} (h : buf.take 4 = [0x50, 0x41, 0x53, 0x53]) :
    ¬ (buf.take 5 = FAIL ∨ buf.take 5 = SKIP) := by
  have htake : (buf.take 5).take 4 = [0x50, 0x41, 0x53, 0x53] := by
    rw [List.take_take]
    exact h
  rintro (hfail | hskip)
  · rw [hfail] at htake
    exact absurd htake (by decide)
  · rw [hskip] at htake
    exact absurd htake (by decide)

theorem clean_append (hhead : ∀ c ∈ head, 0x20 ≤ c.toNat) (bytes : List UInt8) :
    (∀ c ∈ head ++ lossyText bytes, 0x20 ≤ c.toNat) ↔ ∀ b ∈ bytes, 0x20 ≤ b := by
  rw [List.forall_mem_append, lossyText_control]
  exact and_iff_right hhead

theorem cleanReason_of_load (hmem : k.ownedMemory = .ok mem) (hload : mem.load MARKER_ADDR MARKER_LEN = some buf) :
    CleanReason k ↔ (buf.take 5 = FAIL ∨ buf.take 5 = SKIP → ∀ b ∈ reasonBytes buf, 0x20 ≤ b) := by
  constructor
  · intro h
    exact h mem buf hmem hload
  · intro h mem' buf' hmem' hload'
    rw [hmem] at hmem'
    cases hmem'
    rw [hload] at hload'
    cases hload'
    exact h

theorem cleanReason_iff (k : Kernel) : CleanReason k ↔ ∀ c ∈ readMarker k, 0x20 ≤ c.toNat := by
  cases hmem : k.ownedMemory with
  | error e => simp [CleanReason, readMarker, hmem]
  | ok mem =>
    cases hload : mem.load MARKER_ADDR MARKER_LEN with
    | none =>
      simp only [readMarker, hmem, hload, List.not_mem_nil, false_imp_iff, implies_true, iff_true]
      intro mem' buf hmem' hload'
      rw [hmem] at hmem'
      cases hmem'
      rw [hload] at hload'
      cases hload'
    | some buf =>
      rw [cleanReason_of_load hmem hload]
      simp only [readMarker, hmem, hload]
      split
      · rename_i hpass
        simp [take_five_ne hpass]
      · split
        · rename_i hfail
          rw [clean_append (by simp)]
          simp only [hfail, true_or, true_imp_iff]
        · split
          · rename_i hskip
            rw [clean_append (by simp)]
            simp only [hskip, or_true, true_imp_iff]
          · rename_i hfail hskip
            simp [hfail, hskip]

theorem marker_line_iff (k : Kernel) :
    (Json.parse (markerLine (readMarker k)) = some (.object [("marker".toList, .string (readMarker k))]) ∧
        '\n' ∉ markerLine (readMarker k) ↔
      CleanReason k) ∧
    ∀ k', markerLine (readMarker k) = markerLine (readMarker k') → readMarker k = readMarker k' := by
  refine ⟨?_, fun k' h => markerLine_injective h⟩
  rw [cleanReason_iff]
  constructor
  · rintro ⟨hparse, -⟩ c hc
    apply Nat.le_of_not_lt
    intro hcontrol
    rw [parse_markerLine_control hc hcontrol] at hparse
    cases hparse
  · intro h
    refine ⟨parse_markerLine h, ?_⟩
    rw [newline_mem_markerLine]
    intro hmem
    exact absurd (h _ hmem) (by decide)

def brokenBuf : List UInt8 := FAIL ++ [0x61, 0x0A, 0x62] ++ List.replicate 56 0

theorem brokenBuf_fits : MARKER_ADDR + brokenBuf.length ≤ LinearMemory.zeroPage.size := by
  rw [LinearMemory.zeroPage_size]
  decide

def brokenKernel : Kernel :=
  (Kernel.new [] [] { root := "/", cwd := "/" } (Vector.replicate 32 0)).attachMemory
    (LinearMemory.zeroPage.write MARKER_ADDR brokenBuf brokenBuf_fits)

theorem readMarker_fail (hmem : k.ownedMemory = .ok mem) (hload : mem.load MARKER_ADDR MARKER_LEN = some buf)
    (hpass : buf.take 4 ≠ [0x50, 0x41, 0x53, 0x53]) (hfail : buf.take 5 = FAIL) :
    readMarker k = "FAIL:".toList ++ lossyText (reasonBytes buf) := by
  simp only [readMarker, hmem, hload, hpass, hfail, if_false, if_true]

theorem reasonBytes_brokenBuf : reasonBytes brokenBuf = ['a', '\n', 'b'].flatMap String.utf8EncodeChar := by decide

theorem readMarker_brokenKernel : readMarker brokenKernel = ['F', 'A', 'I', 'L', ':', 'a', '\n', 'b'] := by
  have hload : (LinearMemory.zeroPage.write MARKER_ADDR brokenBuf brokenBuf_fits).load MARKER_ADDR MARKER_LEN =
      some brokenBuf := LinearMemory.load_write brokenBuf_fits
  rw [readMarker_fail rfl hload (by decide) (by decide), reasonBytes_brokenBuf, lossyText_flatMap]
  rfl

/-- The line break stays in the line, and no JSON is read. -/
theorem marker_line_broken : ∃ k, readMarker k = ['F', 'A', 'I', 'L', ':', 'a', '\n', 'b'] ∧
    Json.parse (markerLine (readMarker k)) = none ∧ '\n' ∈ markerLine (readMarker k) := by
  refine ⟨brokenKernel, readMarker_brokenKernel, ?_, ?_⟩
  · rw [readMarker_brokenKernel]
    exact parse_markerLine_control (by decide : '\n' ∈ _) (by decide)
  · rw [readMarker_brokenKernel, newline_mem_markerLine]
    decide

end EdgeLibos.Cli
