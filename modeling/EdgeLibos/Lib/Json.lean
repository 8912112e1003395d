import Mathlib.Data.List.Basic

/-!
# JSON

A reader of JSON texts, with the escapes of strings. A number keeps its text. Reading fails
on everything the grammar does not derive, and on escaped surrogates that make no pair.
-/

namespace EdgeLibos.Lib.Json

inductive Value
  | null
  | bool (b : Bool)
  | number (text : List Char)
  | string (text : List Char)
  | array (items : List Value)
  | object (members : List (List Char × Value))

def isWs (c : Char) : Bool := c = ' ' || c = '\t' || c = '\n' || c = '\r'

def skipWs (text : List Char) : List Char := text.dropWhile isWs

-- ---------------------------------------------------------------------------
-- Strings
-- ---------------------------------------------------------------------------

inductive Piece
  | char (c : Char)
  | surrogate (unit : Nat)

def hexDigit (c : Char) : Option Nat :=
  if c.isDigit then some (c.toNat - '0'.toNat)
  else if 'a' ≤ c ∧ c ≤ 'f' then some (c.toNat - 'a'.toNat + 10)
  else if 'A' ≤ c ∧ c ≤ 'F' then some (c.toNat - 'A'.toNat + 10)
  else none

def codeUnit (a b c d : Char) : Option Piece := do
  let a ← hexDigit a
  let b ← hexDigit b
  let c ← hexDigit c
  let d ← hexDigit d
  let unit := ((a * 16 + b) * 16 + c) * 16 + d
  some (if 0xD800 ≤ unit ∧ unit < 0xE000 then .surrogate unit else .char (Char.ofNat unit))

def escaped (e : Char) : Option Char :=
  if e = '"' ∨ e = '\\' ∨ e = '/' then some e
  else if e = 'b' then some '\x08'
  else if e = 'f' then some '\x0c'
  else if e = 'n' then some '\n'
  else if e = 'r' then some '\r'
  else if e = 't' then some '\t'
  else none

def pieces : List Char → Option (List Piece × List Char)
  | [] => none
  | c :: rest =>
    if c = '"' then some ([], rest)
    else if c = '\\' then
      match rest with
      | [] => none
      | e :: rest =>
        if e = 'u' then
          match rest with
          | a :: b :: c :: d :: rest => do
            let unit ← codeUnit a b c d
            let (more, rest) ← pieces rest
            some (unit :: more, rest)
          | _ => none
        else do
          let c ← escaped e
          let (more, rest) ← pieces rest
          some (.char c :: more, rest)
    else if c.toNat < 0x20 then none
    else do
      let (more, rest) ← pieces rest
      some (.char c :: more, rest)

def join : List Piece → Option (List Char)
  | [] => some []
  | .char c :: rest => (join rest).map (c :: ·)
  | .surrogate high :: .surrogate low :: rest =>
    if high < 0xDC00 ∧ 0xDC00 ≤ low then
      (join rest).map (Char.ofNat (0x10000 + (high - 0xD800) * 0x400 + (low - 0xDC00)) :: ·)
    else none
  | .surrogate _ :: _ => none

def readString (text : List Char) : Option (List Char × List Char) := do
  let (found, rest) ← pieces text
  let chars ← join found
  some (chars, rest)

-- ---------------------------------------------------------------------------
-- Numbers
-- ---------------------------------------------------------------------------

def digits (text : List Char) : Option (List Char × List Char) :=
  let (found, rest) := text.span Char.isDigit
  if found = [] then none else some (found, rest)

def optionally (marks : List Char) (part : List Char → Option (List Char × List Char)) (text : List Char) :
    Option (List Char × List Char) :=
  match text with
  | [] => some ([], [])
  | c :: rest =>
    if c ∈ marks then do
      let (found, rest) ← part rest
      some (c :: found, rest)
    else some ([], text)

def readNumber (text : List Char) : Option (List Char × List Char) := do
  let (minus, text) ← optionally ['-'] (fun rest => some ([], rest)) text
  let (int, text) ← match text with
    | '0' :: rest => some (['0'], rest)
    | text => digits text
  let (frac, text) ← optionally ['.'] digits text
  let (exp, text) ← optionally ['e', 'E'] (fun rest => do
    let (sign, rest) ← optionally ['+', '-'] (fun rest => some ([], rest)) rest
    let (found, rest) ← digits rest
    some (sign ++ found, rest)) text
  some (minus ++ int ++ frac ++ exp, text)

-- ---------------------------------------------------------------------------
-- Values
-- ---------------------------------------------------------------------------

def literal (word : String) (v : Value) (text : List Char) : Option (Value × List Char) :=
  if word.toList.isPrefixOf text then some (v, text.drop word.length) else none

mutual
def value : Nat → List Char → Option (Value × List Char)
  | 0, _ => none
  | fuel + 1, text =>
    match skipWs text with
    | [] => none
    | c :: rest =>
      if c = '"' then (readString rest).map fun (s, rest) => (.string s, rest)
      else if c = '\x7b' then
        match skipWs rest with
        | '\x7d' :: rest => some (.object [], rest)
        | rest => (members fuel rest).map fun (ms, rest) => (.object ms, rest)
      else if c = '[' then
        match skipWs rest with
        | ']' :: rest => some (.array [], rest)
        | rest => (items fuel rest).map fun (vs, rest) => (.array vs, rest)
      else if c = 't' then literal "true" (.bool true) (c :: rest)
      else if c = 'f' then literal "false" (.bool false) (c :: rest)
      else if c = 'n' then literal "null" .null (c :: rest)
      else (readNumber (c :: rest)).map fun (n, rest) => (.number n, rest)
def members : Nat → List Char → Option (List (List Char × Value) × List Char)
  | 0, _ => none
  | fuel + 1, text =>
    match skipWs text with
    | '"' :: rest => do
      let (key, rest) ← readString rest
      match skipWs rest with
      | ':' :: rest => do
        let (v, rest) ← value fuel rest
        match skipWs rest with
        | '\x7d' :: rest => some ([(key, v)], rest)
        | ',' :: rest => do
          let (ms, rest) ← members fuel rest
          some ((key, v) :: ms, rest)
        | _ => none
      | _ => none
    | _ => none
def items : Nat → List Char → Option (List Value × List Char)
  | 0, _ => none
  | fuel + 1, text => do
    let (v, rest) ← value fuel text
    match skipWs rest with
    | ']' :: rest => some ([v], rest)
    | ',' :: rest => do
      let (vs, rest) ← items fuel rest
      some (v :: vs, rest)
    | _ => none
end

def parse (text : List Char) : Option Value :=
  match value text.length text with
  | some (v, rest) => if skipWs rest = [] then some v else none
  | none => none

-- ---------------------------------------------------------------------------
-- Reading strings
-- ---------------------------------------------------------------------------

theorem readString_quote (rest : List Char) : readString ('"' :: rest) = some ([], rest) := by
  rw [readString, pieces.eq_def]
  rfl

theorem readString_cons
    (h : pieces text = (pieces rest).map fun (more, rest) => (.char c :: more, rest)) :
    readString text = (readString rest).map fun (s, rest) => (c :: s, rest) := by
  rw [readString, readString, h]
  cases pieces rest with
  | none => rfl
  | some found => cases hjoin : join found.1 <;> simp [join, hjoin]

theorem readString_char (hcontrol : 0x20 ≤ c.toNat) (hquote : c ≠ '"') (hslash : c ≠ '\\') (rest : List Char) :
    readString (c :: rest) = (readString rest).map fun (s, rest) => (c :: s, rest) := by
  apply readString_cons
  rw [pieces.eq_def]
  simp only [hquote, hslash, Nat.not_lt.mpr hcontrol, if_false]
  cases pieces rest <;> rfl

theorem readString_escaped (h : escaped e = some c) (rest : List Char) :
    readString ('\\' :: e :: rest) = (readString rest).map fun (s, rest) => (c :: s, rest) := by
  have hunicode : e ≠ 'u' := by
    rintro rfl
    cases h
  apply readString_cons
  rw [pieces.eq_def]
  simp only [hunicode, h, if_false]
  cases pieces rest <;> rfl

theorem control_ne (h : c.toNat < 0x20) : c ≠ '"' ∧ c ≠ '\\' := by
  constructor
  · rintro rfl
    exact absurd h (by decide)
  · rintro rfl
    exact absurd h (by decide)

theorem readString_control (h : c.toNat < 0x20) (rest : List Char) : readString (c :: rest) = none := by
  obtain ⟨hquote, hslash⟩ := control_ne h
  rw [readString, pieces.eq_def]
  simp only [hquote, hslash, h, if_false, if_true]
  rfl

-- ---------------------------------------------------------------------------
-- An object of one string
-- ---------------------------------------------------------------------------

theorem parse_member (hkey : readString text = some (key, ':' :: '"' :: body))
    (hbody : readString body = some (s, ['\x7d'])) :
    parse ('\x7b' :: '"' :: text) = some (.object [(key, .string s)]) := by
  cases text with
  | nil => cases hkey
  | cons c text => simp [parse, value, members, skipWs, isWs, hkey, hbody]

theorem parse_member_none (hkey : readString text = some (key, ':' :: '"' :: body)) (hbody : readString body = none) :
    parse ('\x7b' :: '"' :: text) = none := by
  cases text with
  | nil => cases hkey
  | cons c text => simp [parse, value, members, skipWs, isWs, hkey, hbody]

end EdgeLibos.Lib.Json
