import EdgeLibos.Lib.Words

/-!
# Records in bytes

A record as a list of numbers, each with the bytes it takes, the least significant first.
A reader who knows the widths gets the numbers back, unless one is too large for its place.
-/

namespace EdgeLibos.Lib.Layout

open Postcard.Codec

structure Field where
  width : Nat
  value : Nat
  deriving DecidableEq, Repr

def Field.Fits (f : Field) : Prop := f.value < 256 ^ f.width

def encode (fields : List Field) : List UInt8 := fields.flatMap fun f => encLe f.width f.value

def size (widths : List Nat) : Nat := widths.sum

def parse : List Nat → List UInt8 → List Nat
  | [], _ => []
  | w :: widths, bytes => leValue (bytes.take w) :: parse widths (bytes.drop w)

@[simp] theorem encode_nil : encode [] = [] := rfl

@[simp] theorem encode_cons (f : Field) (fields : List Field) :
    encode (f :: fields) = encLe f.width f.value ++ encode fields := rfl

theorem encode_length (fields : List Field) : (encode fields).length = size (fields.map Field.width) := by
  induction fields with
  | nil => rfl
  | cons f fields ih => simp [ih, size, encLe_length]

theorem parse_encode (fields : List Field) (rest : List UInt8) (h : ∀ f ∈ fields, f.Fits) :
    parse (fields.map Field.width) (encode fields ++ rest) = fields.map Field.value := by
  induction fields with
  | nil => rfl
  | cons f fields ih =>
    have hfits : f.value % 256 ^ f.width = f.value := Nat.mod_eq_of_lt (h f List.mem_cons_self)
    have hrest := ih fun g hg => h g (List.mem_cons_of_mem _ hg)
    have hlength := encLe_length f.width f.value
    simp only [List.map_cons, parse, encode_cons, List.append_assoc]
    rw [List.take_left' hlength, List.drop_left' hlength, leValue_encLe, hfits, hrest]

end EdgeLibos.Lib.Layout
