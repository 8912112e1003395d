import EdgeLibos.Lib.Json
import Mathlib.Data.List.TakeDrop

/-!
# JSON without white space

Texts that the reader takes for a value, whatever stops it after them: strings without
escapes, integers in decimal digits, and arrays and objects of such texts.
-/

namespace EdgeLibos.Lib.Json

variable {text rest : List Char} {c d : Char}

def plain (text : List Char) : Bool := text.all fun c => 0x20 ≤ c.toNat && c ≠ '"' && c ≠ '\\'

theorem plain_cons : plain (c :: text) ↔ (0x20 ≤ c.toNat ∧ c ≠ '"' ∧ c ≠ '\\') ∧ plain text := by
  simp [plain, and_assoc]

theorem readString_plain (h : plain text) (rest : List Char) :
    readString (text ++ '"' :: rest) = some (text, rest) := by
  induction text with
  | nil => exact readString_quote rest
  | cons c text ih =>
    obtain ⟨⟨hcontrol, hquote, hslash⟩, htext⟩ := plain_cons.mp h
    simp [readString_char hcontrol hquote hslash, ih htext]

-- ---------------------------------------------------------------------------
-- Integers
-- ---------------------------------------------------------------------------

def integer : Int → List Char
  | .ofNat n => Nat.toDigits 10 n
  | .negSucc n => '-' :: Nat.toDigits 10 (n + 1)

def ofInteger : List Char → Int
  | [] => 0
  | c :: rest => if c = '-' then -(Nat.ofDigitChars 10 rest 0 : Nat) else Nat.ofDigitChars 10 (c :: rest) 0

theorem isDigit_toDigits (hc : c ∈ Nat.toDigits 10 n) : c.isDigit :=
  Nat.isDigit_of_mem_toDigits (by decide) (by decide) hc

theorem toDigits_cons (n : Nat) : ∃ c rest, Nat.toDigits 10 n = c :: rest ∧ c.isDigit := by
  cases h : Nat.toDigits 10 n with
  | nil => exact absurd h Nat.toDigits_ne_nil
  | cons c rest =>
    refine ⟨c, rest, rfl, isDigit_toDigits (n := n) ?_⟩
    rw [h]
    exact List.mem_cons_self

theorem digit_ne (h : c.isDigit = true) (hd : d.isDigit = false) : c ≠ d := by
  rintro rfl
  rw [h] at hd
  cases hd

theorem ofInteger_integer (i : Int) : ofInteger (integer i) = i := by
  cases i with
  | ofNat n =>
    obtain ⟨c, rest, htext, hc⟩ := toDigits_cons n
    have hminus : c ≠ '-' := digit_ne hc rfl
    have hvalue := Nat.ofDigitChars_ten_toDigits (n := n)
    simp only [integer, ofInteger, htext, hminus, if_false] at hvalue ⊢
    simp [hvalue]
  | negSucc n => simp [integer, ofInteger, Nat.ofDigitChars_ten_toDigits, Int.negSucc_eq]

theorem digitChar_ne_zero : ∀ n < 10, 0 < n → Nat.digitChar n ≠ '0' := by decide

theorem toDigits_head_ne_zero (n : Nat) (hn : 0 < n) : (Nat.toDigits 10 n).head? ≠ some '0' := by
  induction n using Nat.strongRecOn with
  | _ n ih =>
    rcases Nat.lt_or_ge n 10 with hlt | hge
    · simp [Nat.toDigits_of_lt_base hlt, digitChar_ne_zero n hlt hn]
    · rw [Nat.toDigits_of_base_le (by decide) hge]
      have hdiv : 0 < n / 10 := Nat.div_pos hge (by decide)
      have hhead := ih (n / 10) (Nat.div_lt_self hn (by decide)) hdiv
      obtain ⟨c, rest, htext, -⟩ := toDigits_cons (n / 10)
      rw [htext] at hhead ⊢
      exact hhead

/-- What may stand after a value. -/
def Stops (rest : List Char) : Prop := ∀ c ∈ rest.head?, c = ',' ∨ c = ']' ∨ c = '\x7d'

theorem stops_nil : Stops [] := by simp [Stops]

theorem stops_comma (rest : List Char) : Stops (',' :: rest) := by simp [Stops]

theorem stops_bracket (rest : List Char) : Stops (']' :: rest) := by simp [Stops]

theorem stops_brace (rest : List Char) : Stops ('\x7d' :: rest) := by simp [Stops]

theorem span_digits (hdigits : ∀ c ∈ text, c.isDigit) (hstop : Stops rest) :
    (text ++ rest).span Char.isDigit = (text, rest) := by
  induction text with
  | nil =>
    cases rest with
    | nil => rfl
    | cons c rest =>
      have hc : c.isDigit = false := by
        rcases hstop c rfl with rfl | rfl | rfl <;> rfl
      simp [List.span_eq_takeWhile_dropWhile, hc]
  | cons c text ih =>
    have hc : c.isDigit = true := hdigits c List.mem_cons_self
    have htext := ih fun d hd => hdigits d (List.mem_cons_of_mem c hd)
    simp only [List.span_eq_takeWhile_dropWhile, Prod.mk.injEq] at htext ⊢
    simp [hc, htext.1, htext.2]

theorem optionally_stop (hstop : Stops rest) (marks : List Char) (part : List Char → Option (List Char × List Char))
    (hmarks : ',' ∉ marks ∧ ']' ∉ marks ∧ '\x7d' ∉ marks) : optionally marks part rest = some ([], rest) := by
  obtain ⟨hcomma, hbracket, hbrace⟩ := hmarks
  cases rest with
  | nil => rfl
  | cons c rest => rcases hstop c rfl with rfl | rfl | rfl <;> simp [optionally, hcomma, hbracket, hbrace]

theorem optionally_skip {marks : List Char} (h : c ∉ marks) (part : List Char → Option (List Char × List Char))
    (rest : List Char) : optionally marks part (c :: rest) = some ([], c :: rest) := by
  simp [optionally, h]

theorem optionally_minus (rest : List Char) :
    optionally ['-'] (fun rest => some ([], rest)) ('-' :: rest) = some (['-'], rest) := rfl

theorem readNumber_of_minus (n : Nat) (hstop : Stops rest)
    (hminus : optionally ['-'] (fun rest => some ([], rest)) text = some (sign, Nat.toDigits 10 n ++ rest)) :
    readNumber text = some (sign ++ Nat.toDigits 10 n, rest) := by
  have hfrac := optionally_stop hstop ['.'] digits (by decide)
  have hexp := fun part => optionally_stop hstop ['e', 'E'] part (by decide)
  rcases Nat.eq_zero_or_pos n with rfl | hn
  · simp [Nat.toDigits_zero] at hminus
    simp [readNumber, hminus, hfrac, hexp, Nat.toDigits_zero]
  · have hspan : (Nat.toDigits 10 n ++ rest).span Char.isDigit = (Nat.toDigits 10 n, rest) :=
      span_digits (fun c hc => isDigit_toDigits hc) hstop
    have hzero := toDigits_head_ne_zero n hn
    obtain ⟨c, tail, htext, hc⟩ := toDigits_cons n
    rw [htext] at hspan hzero hminus ⊢
    have hc0 : c ≠ '0' := by simpa using hzero
    have hdigits : digits (c :: (tail ++ rest)) = some (c :: tail, rest) := by
      rw [List.cons_append] at hspan
      simp only [digits, hspan]
      rfl
    rw [List.cons_append] at hminus
    simp [readNumber, hminus, hc0, hdigits, hfrac, hexp]

theorem readNumber_integer (i : Int) (hstop : Stops rest) :
    readNumber (integer i ++ rest) = some (integer i, rest) := by
  cases i with
  | ofNat n =>
    obtain ⟨c, tail, htext, hc⟩ := toDigits_cons n
    have hminus : c ≠ '-' := digit_ne hc rfl
    have hc : c ∉ ['-'] := by simp [hminus]
    have hskip : optionally ['-'] (fun rest => some ([], rest)) (Nat.toDigits 10 n ++ rest) =
        some ([], Nat.toDigits 10 n ++ rest) := by
      rw [htext]
      exact optionally_skip hc _ _
    exact readNumber_of_minus n hstop hskip
  | negSucc n => exact readNumber_of_minus (n + 1) hstop (optionally_minus _)

-- ---------------------------------------------------------------------------
-- Values
-- ---------------------------------------------------------------------------

structure Reads (text : List Char) (v : Value) : Prop where
  starts : ∃ c tail, text = c :: tail ∧ isWs c = false ∧ c ≠ ']'
  value : ∀ {fuel rest}, text.length ≤ fuel → Stops rest → value fuel (text ++ rest) = some (v, rest)

theorem parse_of_reads (h : Reads text v) : parse text = some v := by
  have hvalue := h.value (Nat.le_refl _) stops_nil
  rw [List.append_nil] at hvalue
  simp [parse, hvalue, skipWs]

def quoted (text : List Char) : List Char := '"' :: (text ++ ['"'])

theorem reads_quoted (h : plain text) : Reads (quoted text) (.string text) where
  starts := ⟨'"', _, rfl, rfl, by decide⟩
  value := by
    intro fuel rest hfuel _
    cases fuel with
    | zero => simp [quoted] at hfuel
    | succ fuel => simp [quoted, value, skipWs, isWs, readString_plain h]

theorem integer_cons (i : Int) : ∃ c tail, integer i = c :: tail ∧ (c = '-' ∨ c.isDigit = true) := by
  cases i with
  | ofNat n =>
    obtain ⟨c, tail, htext, hc⟩ := toDigits_cons n
    exact ⟨c, tail, htext, .inr hc⟩
  | negSucc n => exact ⟨'-', _, rfl, .inl rfl⟩

theorem reads_integer (i : Int) : Reads (integer i) (.number (integer i)) := by
  obtain ⟨c, tail, htext, hc⟩ := integer_cons i
  have hne : ∀ d, d ≠ '-' → d.isDigit = false → c ≠ d := by
    intro d hminus hdigit
    rcases hc with rfl | hc
    · exact hminus.symm
    · exact digit_ne hc hdigit
  have hws : isWs c = false := by
    simp [isWs, hne ' ' (by decide) rfl, hne '\t' (by decide) rfl, hne '\n' (by decide) rfl,
      hne '\r' (by decide) rfl]
  refine ⟨⟨c, tail, htext, hws, hne ']' (by decide) rfl⟩, ?_⟩
  intro fuel rest hfuel hstop
  have hnumber := readNumber_integer i hstop
  rw [htext] at hfuel hnumber ⊢
  cases fuel with
  | zero => simp at hfuel
  | succ fuel =>
    simp only [List.cons_append] at hnumber ⊢
    simp [value, skipWs, hws, hnumber, hne '"' (by decide) rfl, hne '\x7b' (by decide) rfl,
      hne '[' (by decide) rfl, hne 't' (by decide) rfl, hne 'f' (by decide) rfl, hne 'n' (by decide) rfl]

-- ---------------------------------------------------------------------------
-- Arrays and objects
-- ---------------------------------------------------------------------------

def commas : List (List Char) → List Char
  | [] => []
  | [text] => text
  | text :: texts => text ++ ',' :: commas texts

theorem commas_cons (h : List.Forall₂ Reads texts vs) (hne : texts ≠ []) :
    ∃ c tail, commas texts = c :: tail ∧ isWs c = false ∧ c ≠ ']' := by
  cases h with
  | nil => exact absurd rfl hne
  | @cons text v texts vs hread hrest =>
    obtain ⟨c, tail, rfl, hstart⟩ := hread.starts
    cases texts with
    | nil => exact ⟨c, tail, rfl, hstart⟩
    | cons next texts => exact ⟨c, tail ++ ',' :: commas (next :: texts), rfl, hstart⟩

theorem items_commas (h : List.Forall₂ Reads texts vs) (hne : texts ≠ []) (hfuel : (commas texts).length < fuel)
    (rest : List Char) : items fuel (commas texts ++ ']' :: rest) = some (vs, rest) := by
  induction h generalizing fuel with
  | nil => exact absurd rfl hne
  | @cons text v texts vs hread hrest ih =>
    cases fuel with
    | zero => cases hfuel
    | succ fuel =>
      cases texts with
      | nil =>
        cases hrest
        have hvalue := hread.value (Nat.le_of_lt_succ hfuel) (stops_bracket rest)
        simp [commas, items, hvalue, skipWs, isWs]
      | cons next texts =>
        have hlen : (commas (text :: next :: texts)).length = text.length + (commas (next :: texts)).length + 1 := by
          simp [commas, Nat.add_assoc]
        have htext : text.length ≤ fuel := by omega
        have htexts : (commas (next :: texts)).length < fuel := by omega
        have hvalue := hread.value htext (stops_comma (commas (next :: texts) ++ ']' :: rest))
        have hitems := ih (List.cons_ne_nil next texts) htexts
        simp [commas, items, hvalue, hitems, skipWs, isWs]

def array (texts : List (List Char)) : List Char := '[' :: (commas texts ++ [']'])

theorem reads_array (h : List.Forall₂ Reads texts vs) (hne : texts ≠ []) : Reads (array texts) (.array vs) where
  starts := ⟨'[', _, rfl, rfl, by decide⟩
  value := by
    intro fuel rest hfuel _
    cases fuel with
    | zero => simp [array] at hfuel
    | succ fuel =>
      have hlen : (commas texts).length < fuel := by
        simp [array] at hfuel
        omega
      have hitems := items_commas h hne hlen rest
      obtain ⟨c, tail, htext, hws, hbracket⟩ := commas_cons h hne
      rw [htext, List.cons_append] at hitems
      have hopen : ∀ text, skipWs ('[' :: text) = '[' :: text := fun text => by simp [skipWs, isWs]
      have hskip : skipWs (c :: (tail ++ ']' :: rest)) = c :: (tail ++ ']' :: rest) := by simp [skipWs, hws]
      rw [array, htext]
      simp [value, hopen, hskip, hbracket, hitems]

def member (m : List Char × List Char) : List Char := quoted m.1 ++ ':' :: m.2

def ReadsMember (m : List Char × List Char) (r : List Char × Value) : Prop :=
  m.1 = r.1 ∧ plain m.1 ∧ Reads m.2 r.2

theorem members_commas (h : List.Forall₂ ReadsMember ms rs) (hne : ms ≠ [])
    (hfuel : (commas (ms.map member)).length < fuel) (rest : List Char) :
    members fuel (commas (ms.map member) ++ '\x7d' :: rest) = some (rs, rest) := by
  induction h generalizing fuel with
  | nil => exact absurd rfl hne
  | @cons m r ms rs hread hrest ih =>
    obtain ⟨key, text⟩ := m
    obtain ⟨key', v⟩ := r
    obtain ⟨rfl, hplain, hread⟩ : key = key' ∧ plain key ∧ Reads text v := hread
    cases fuel with
    | zero => cases hfuel
    | succ fuel =>
      cases ms with
      | nil =>
        cases hrest
        have hlen : (commas ([(key, text)].map member)).length = key.length + 3 + text.length := by
          simp [commas, member, quoted]
          omega
        have htext : text.length ≤ fuel := by omega
        have hvalue := hread.value htext (stops_brace rest)
        simp [commas, member, quoted, members, readString_plain hplain, hvalue, skipWs, isWs]
      | cons next ms =>
        have hlen : (commas (((key, text) :: next :: ms).map member)).length =
            key.length + 3 + text.length + (commas ((next :: ms).map member)).length + 1 := by
          simp [commas, member, quoted]
          omega
        have htext : text.length ≤ fuel := by omega
        have hms : (commas ((next :: ms).map member)).length < fuel := by omega
        have hvalue := hread.value htext (stops_comma (commas ((next :: ms).map member) ++ '\x7d' :: rest))
        have hmembers := ih (List.cons_ne_nil next ms) hms
        simp only [List.map_cons] at hvalue hmembers
        simp [commas, member, quoted, members, readString_plain hplain, skipWs, isWs] at hvalue hmembers ⊢
        simp [hvalue, hmembers, isWs]

def object (ms : List (List Char × List Char)) : List Char := '\x7b' :: (commas (ms.map member) ++ ['\x7d'])

theorem reads_object (h : List.Forall₂ ReadsMember ms rs) (hne : ms ≠ []) : Reads (object ms) (.object rs) where
  starts := ⟨'\x7b', _, rfl, rfl, by decide⟩
  value := by
    intro fuel rest hfuel _
    cases fuel with
    | zero => simp [object] at hfuel
    | succ fuel =>
      have hlen : (commas (ms.map member)).length < fuel := by
        simp [object] at hfuel
        omega
      have hmembers := members_commas h hne hlen rest
      cases ms with
      | nil => exact absurd rfl hne
      | cons m ms =>
        have hquote : ∃ tail, commas ((m :: ms).map member) = '"' :: tail := by
          cases ms <;> exact ⟨_, rfl⟩
        obtain ⟨tail, htext⟩ := hquote
        rw [htext, List.cons_append] at hmembers
        rw [object, htext]
        simp [value, hmembers, skipWs, isWs]

end EdgeLibos.Lib.Json
