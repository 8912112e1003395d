import EdgeLibos.Lib.JsonText

/-!
# Integers in decimal

`str::parse` for the integer types: at most one sign, and digits up to the greatest
magnitude there is. The errors are the texts of `ParseIntError`.
-/

namespace EdgeLibos.Lib

def TOO_LARGE : String := "number too large to fit in target type"

def TOO_SMALL : String := "number too small to fit in target type"

/-- The digits after `n` was read. -/
def digitsUpTo (limit : Nat) (overflow : String) : Nat → List Char → Except String Nat
  | n, [] => .ok n
  | n, c :: rest =>
    if c.isDigit then
      let n := n * 10 + (c.toNat - '0'.toNat)
      if n ≤ limit then digitsUpTo limit overflow n rest else .error overflow
    else .error "invalid digit found in string"

/-- What follows the sign. -/
def unsignedDigits (limit : Nat) (overflow : String) : List Char → Except String Nat
  | [] => .error "invalid digit found in string"
  | digits => digitsUpTo limit overflow 0 digits

/-- `str::parse` for the unsigned type with this greatest value. -/
def parseUnsigned (limit : Nat) : List Char → Except String Nat
  | [] => .error "cannot parse integer from empty string"
  | c :: rest => unsignedDigits limit TOO_LARGE (if c = '+' then rest else c :: rest)

variable {digits : List Char} {n limit : Nat}

theorem le_ofDigitChars (digits : List Char) (n : Nat) : n ≤ Nat.ofDigitChars 10 digits n := by
  induction digits generalizing n with
  | nil => simp
  | cons c digits ih =>
    have hrest := ih (10 * n + (c.toNat - '0'.toNat))
    rw [Nat.ofDigitChars_cons]
    omega

theorem digitsUpTo_ok (overflow : String) (hdigits : ∀ c ∈ digits, c.isDigit)
    (h : Nat.ofDigitChars 10 digits n ≤ limit) :
    digitsUpTo limit overflow n digits = .ok (Nat.ofDigitChars 10 digits n) := by
  induction digits generalizing n with
  | nil => simp [digitsUpTo]
  | cons c digits ih =>
    have hrest := fun d hd => hdigits d (List.mem_cons_of_mem c hd)
    rw [Nat.ofDigitChars_cons, Nat.mul_comm] at h ⊢
    have hle := le_ofDigitChars digits (n * 10 + (c.toNat - '0'.toNat))
    have hlimit := Nat.le_trans hle h
    rw [digitsUpTo, if_pos (hdigits c List.mem_cons_self)]
    simp only [hlimit, if_true]
    exact ih hrest h

theorem unsignedDigits_toDigits (overflow : String) (h : n ≤ limit) :
    unsignedDigits limit overflow (Nat.toDigits 10 n) = .ok n := by
  have hvalue : Nat.ofDigitChars 10 (Nat.toDigits 10 n) 0 = n := Nat.ofDigitChars_ten_toDigits
  have hok := digitsUpTo_ok overflow (fun c hc => Json.isDigit_toDigits hc) (Nat.le_trans (Nat.le_of_eq hvalue) h)
  obtain ⟨c, rest, htext, -⟩ := Json.toDigits_cons n
  rw [htext] at hvalue hok ⊢
  rw [unsignedDigits, hok, hvalue]
  simp

/-- A number in range that is written in decimal is read back. -/
theorem parseUnsigned_toDigits (h : n ≤ limit) : parseUnsigned limit (Nat.toDigits 10 n) = .ok n := by
  have hok := unsignedDigits_toDigits TOO_LARGE h
  obtain ⟨c, rest, htext, hc⟩ := Json.toDigits_cons n
  have hplus : c ≠ '+' := Json.digit_ne hc rfl
  rw [htext] at hok ⊢
  rw [parseUnsigned, if_neg hplus, hok]

end EdgeLibos.Lib
