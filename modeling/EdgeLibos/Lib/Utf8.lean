import Mathlib.Init

/-!
# Bytes to text

The lossy conversion of bytes to UTF-8 text: what encodes characters is kept, and each
longest part of what does not that could begin a character becomes U+FFFD.
-/

namespace EdgeLibos.Lib

def Utf8 (bytes : List UInt8) : Prop := ∃ text : List Char, bytes = text.flatMap String.utf8EncodeChar

def isContinuation (b : UInt8) : Bool := 0x80 ≤ b && b ≤ 0xBF

/-- Whether a byte can follow the first one of three or four. -/
def secondFits (first second : UInt8) : Bool :=
  if first = 0xE0 then 0xA0 ≤ second && second ≤ 0xBF
  else if first = 0xED then 0x80 ≤ second && second ≤ 0x9F
  else if first = 0xF0 then 0x90 ≤ second && second ≤ 0xBF
  else if first = 0xF4 then 0x80 ≤ second && second ≤ 0x8F
  else 0xE1 ≤ first && first ≤ 0xF3 && isContinuation second

/-- How many bytes one replacement stands for, where no character can be read. -/
def invalidLength : List UInt8 → Nat
  | first :: second :: third :: _ =>
    if !secondFits first second then 1
    else if 0xF0 ≤ first && isContinuation third then 3
    else 2
  | [first, second] => if secondFits first second then 2 else 1
  | _ => 1

theorem invalidLength_pos (bytes : List UInt8) : 0 < invalidLength bytes := by
  unfold invalidLength
  split
  · split
    · decide
    · split <;> decide
  · split <;> decide
  · decide

def replacement : List UInt8 := [0xEF, 0xBF, 0xBD]

/-- `String::from_utf8_lossy`. -/
def fromUtf8Lossy (bytes : List UInt8) : List UInt8 :=
  if bytes = [] then []
  else
    match bytes.toByteArray.utf8DecodeChar? 0 with
    | some c => bytes.take c.utf8Size ++ fromUtf8Lossy (bytes.drop c.utf8Size)
    | none => replacement ++ fromUtf8Lossy (bytes.drop (invalidLength bytes))
termination_by bytes.length
decreasing_by
  · have hpos := List.length_pos_iff.mpr (by assumption)
    have hsize := c.utf8Size_pos
    rw [List.length_drop]
    omega
  · have hpos := List.length_pos_iff.mpr (by assumption)
    have hskip := invalidLength_pos bytes
    rw [List.length_drop]
    omega

theorem fromUtf8Lossy_nil : fromUtf8Lossy [] = [] := by
  rw [fromUtf8Lossy, if_pos rfl]

theorem encode_ne_nil (c : Char) (rest : List UInt8) : String.utf8EncodeChar c ++ rest ≠ [] := by
  have hpos := c.utf8Size_pos
  rw [← String.length_utf8EncodeChar c] at hpos
  exact List.append_ne_nil_of_left_ne_nil (List.length_pos_iff.mp hpos) rest

theorem decode_encode (c : Char) (rest : List UInt8) :
    (String.utf8EncodeChar c ++ rest).toByteArray.utf8DecodeChar? 0 = some c := by
  rw [List.toByteArray_append]
  exact ByteArray.utf8DecodeChar?_utf8EncodeChar_append

theorem fromUtf8Lossy_encode (c : Char) (rest : List UInt8) :
    fromUtf8Lossy (String.utf8EncodeChar c ++ rest) =
      String.utf8EncodeChar c ++ fromUtf8Lossy rest := by
  rw [fromUtf8Lossy, if_neg (encode_ne_nil c rest), decode_encode]
  simp only
  rw [← String.length_utf8EncodeChar c, List.take_left, List.drop_left]

theorem fromUtf8Lossy_of_utf8 (h : Utf8 bytes) : fromUtf8Lossy bytes = bytes := by
  obtain ⟨text, rfl⟩ := h
  induction text with
  | nil => exact fromUtf8Lossy_nil
  | cons c rest ih => rw [List.flatMap_cons, fromUtf8Lossy_encode, ih]

theorem fromUtf8Lossy_length_le (bytes : List UInt8) :
    (fromUtf8Lossy bytes).length ≤ 3 * bytes.length := by
  induction bytes using fromUtf8Lossy.induct with
  | case1 =>
    rw [fromUtf8Lossy_nil]
    exact Nat.zero_le _
  | case2 bytes hne c hc ih =>
    rw [fromUtf8Lossy, if_neg hne, hc]
    simp only
    rw [List.length_append, List.length_take]
    rw [List.length_drop] at ih
    omega
  | case3 bytes hne hc ih =>
    have hpos := List.length_pos_iff.mpr hne
    have hskip := invalidLength_pos bytes
    rw [fromUtf8Lossy, if_neg hne, hc]
    simp only
    rw [List.length_append, show replacement.length = 3 from rfl]
    rw [List.length_drop] at ih
    omega

theorem nul_not_mem_fromUtf8Lossy (h : 0 ∉ bytes) : 0 ∉ fromUtf8Lossy bytes := by
  induction bytes using fromUtf8Lossy.induct with
  | case1 => rwa [fromUtf8Lossy_nil]
  | case2 bytes hne c hc ih =>
    rw [fromUtf8Lossy, if_neg hne, hc]
    simp only
    rw [List.mem_append, not_or]
    exact ⟨fun hmem => h (List.mem_of_mem_take hmem), ih fun hmem => h (List.mem_of_mem_drop hmem)⟩
  | case3 bytes hne hc ih =>
    rw [fromUtf8Lossy, if_neg hne, hc]
    simp only
    rw [List.mem_append, not_or]
    exact ⟨by decide, ih fun hmem => h (List.mem_of_mem_drop hmem)⟩

-- ---------------------------------------------------------------------------
-- The characters
-- ---------------------------------------------------------------------------

def lossyText (bytes : List UInt8) : List Char :=
  if bytes = [] then []
  else
    match bytes.toByteArray.utf8DecodeChar? 0 with
    | some c => c :: lossyText (bytes.drop c.utf8Size)
    | none => '\uFFFD' :: lossyText (bytes.drop (invalidLength bytes))
termination_by bytes.length
decreasing_by
  · have hpos := List.length_pos_iff.mpr (by assumption)
    have hsize := c.utf8Size_pos
    rw [List.length_drop]
    omega
  · have hpos := List.length_pos_iff.mpr (by assumption)
    have hskip := invalidLength_pos bytes
    rw [List.length_drop]
    omega

theorem lossyText_encode (c : Char) (rest : List UInt8) :
    lossyText (String.utf8EncodeChar c ++ rest) = c :: lossyText rest := by
  rw [lossyText, if_neg (encode_ne_nil c rest), decode_encode]
  simp only
  rw [← String.length_utf8EncodeChar c, List.drop_left]

theorem lossyText_flatMap (text : List Char) : lossyText (text.flatMap String.utf8EncodeChar) = text := by
  induction text with
  | nil => simp [lossyText]
  | cons c text ih => rw [List.flatMap_cons, lossyText_encode, ih]

theorem take_of_decode {bytes : List UInt8} {c : Char} (h : bytes.toByteArray.utf8DecodeChar? 0 = some c) :
    bytes.take c.utf8Size = String.utf8EncodeChar c := by
  obtain ⟨rest, hrest⟩ := ByteArray.exists_of_utf8DecodeChar?_eq_some h
  have hbytes : bytes = String.utf8EncodeChar c ++ rest.data.toList := by
    have := congrArg (fun b => b.data.toList) hrest
    simpa using this
  rw [hbytes, ← String.length_utf8EncodeChar c, List.take_left]

theorem encode_control (c : Char) : (∀ b ∈ String.utf8EncodeChar c, 0x20 ≤ b) ↔ 0x20 ≤ c.toNat := by
  have hv : c.val.toNat = c.toNat := rfl
  have htop := c.val.toNat_lt
  simp only [String.utf8EncodeChar, hv]
  split
  · simp [UInt8.le_iff_toNat_le]
    omega
  · split
    · simp [UInt8.le_iff_toNat_le]
      omega
    · split
      · simp [UInt8.le_iff_toNat_le]
        omega
      · simp [UInt8.le_iff_toNat_le]
        omega

theorem high_of_decode_none {b : UInt8} {rest : List UInt8}
    (h : (b :: rest).toByteArray.utf8DecodeChar? 0 = none) : 0x80 ≤ b := by
  refine UInt8.not_lt.mp fun hlow => ?_
  have hb : b.toNat < 0x80 := UInt8.lt_iff_toNat_lt.mp hlow
  have hencode : String.utf8EncodeChar (Char.ofNat b.toNat) = [b] := by
    have hval : (Char.ofNat b.toNat).val.toNat = b.toNat := by
      rw [Char.ofNat, dif_pos (by unfold Nat.isValidChar; omega)]
      rfl
    simp only [String.utf8EncodeChar, hval]
    rw [if_pos (by omega), UInt8.ofNat_toNat]
  have hdecode : ([b] ++ rest).toByteArray.utf8DecodeChar? 0 = some (Char.ofNat b.toNat) := by
    rw [← hencode]
    exact decode_encode _ rest
  rw [List.singleton_append, h] at hdecode
  cases hdecode

theorem isContinuation_high (h : isContinuation b = true) : 0x80 ≤ b := by
  simp only [isContinuation, Bool.and_eq_true, decide_eq_true_eq] at h
  exact h.1

theorem secondFits_high (h : secondFits first second = true) : 0x80 ≤ second := by
  unfold secondFits at h
  repeat' split at h
  all_goals
    simp only [isContinuation, Bool.and_eq_true, decide_eq_true_eq, UInt8.le_iff_toNat_le, UInt8.toNat_ofNat] at h ⊢
    omega

theorem invalid_high {bytes : List UInt8} (hne : bytes ≠ []) (h : bytes.toByteArray.utf8DecodeChar? 0 = none) :
    ∀ b ∈ bytes.take (invalidLength bytes), 0x80 ≤ b := by
  cases bytes with
  | nil => exact absurd rfl hne
  | cons first rest =>
    have hfirst := high_of_decode_none h
    unfold invalidLength
    split
    · rename_i first second third more heq
      cases heq
      split
      · simpa using hfirst
      · rename_i hfits
        have hsecond := secondFits_high (by simpa using hfits)
        split
        · rename_i hthird
          have hthird := isContinuation_high (Bool.and_eq_true_iff.mp hthird).2
          simp [hfirst, hsecond, hthird]
        · simp [hfirst, hsecond]
    · rename_i first second heq
      cases heq
      split
      · rename_i hfits
        simp [hfirst, secondFits_high hfits]
      · simpa using hfirst
    · simpa using hfirst

theorem lossyText_control (bytes : List UInt8) : (∀ c ∈ lossyText bytes, 0x20 ≤ c.toNat) ↔ ∀ b ∈ bytes, 0x20 ≤ b := by
  induction bytes using lossyText.induct with
  | case1 => simp [lossyText]
  | case2 bytes hne c hc ih =>
    have hbytes : String.utf8EncodeChar c ++ bytes.drop c.utf8Size = bytes := by
      rw [← take_of_decode hc, List.take_append_drop]
    rw [lossyText, if_neg hne, hc]
    simp only
    rw [List.forall_mem_cons, ih, ← encode_control, ← List.forall_mem_append, hbytes]
  | case3 bytes hne hc ih =>
    have hhigh : ∀ b ∈ bytes.take (invalidLength bytes), 0x20 ≤ b :=
      fun b hb => UInt8.le_trans (by decide) (invalid_high hne hc b hb)
    have hbytes := List.take_append_drop (invalidLength bytes) bytes
    rw [lossyText, if_neg hne, hc]
    simp only
    rw [List.forall_mem_cons, ih]
    constructor
    · rintro ⟨-, hrest⟩
      rw [← hbytes]
      exact List.forall_mem_append.mpr ⟨hhigh, hrest⟩
    · intro h
      exact ⟨by decide, fun b hb => h b (List.mem_of_mem_drop hb)⟩

theorem Utf8.append (h : Utf8 bytes) (h' : Utf8 bytes') : Utf8 (bytes ++ bytes') := by
  obtain ⟨text, rfl⟩ := h
  obtain ⟨text', rfl⟩ := h'
  exact ⟨text ++ text', List.flatMap_append.symm⟩

end EdgeLibos.Lib
