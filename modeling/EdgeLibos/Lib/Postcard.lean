import EdgeLibos.Lib.HashMap
import EdgeLibos.Lib.Runs
import Mathlib.Data.List.Flatten

/-!
# Positional codecs

The wire format of postcard: the fields of a value one after another, with no
names and no lengths but those of sequences and strings. A codec carries two
laws. Decoding an encoding gives the value back and leaves what follows it.
Whatever bytes a value was decoded from, they were at least as many as its
own encoding.
-/

namespace EdgeLibos.Lib

namespace Postcard

inductive Error
  | deserializeUnexpectedEnd
  | deserializeBadVarint
  | deserializeBadBool
  | deserializeBadOption
  | deserializeBadUtf8
  | serdeDeCustom
  deriving DecidableEq, Repr

structure Codec (α : Type) where
  enc : α → List UInt8
  dec : List UInt8 → Except Error (α × List UInt8)
  /-- The values the format can hold. -/
  valid : α → Prop
  dec_enc : ∀ x rest, valid x → dec (enc x ++ rest) = .ok (x, rest)
  dec_ok : ∀ bs x rest, dec bs = .ok (x, rest) →
    valid x ∧ (enc x).length + rest.length ≤ bs.length

-- ---------------------------------------------------------------------------
-- Integers
-- ---------------------------------------------------------------------------

namespace Codec

def byte : Codec UInt8 where
  enc b := [b]
  dec
    | [] => .error .deserializeUnexpectedEnd
    | b :: bs => .ok (b, bs)
  valid _ := True
  dec_enc _ _ _ := rfl
  dec_ok bs x rest h := by
    cases bs with
    | nil => cases h
    | cons b bs =>
      cases h
      simp [Nat.add_comm]

/-- `n` bytes, the least significant first. -/
def encLe : Nat → Nat → List UInt8
  | 0, _ => []
  | n + 1, v => UInt8.ofNat v :: encLe n (v / 256)

def decLe : Nat → List UInt8 → Except Error (Nat × List UInt8)
  | 0, bs => .ok (0, bs)
  | _ + 1, [] => .error .deserializeUnexpectedEnd
  | n + 1, b :: bs => do
    let (v, bs) ← decLe n bs
    .ok (b.toNat + 256 * v, bs)

theorem encLe_length (n v : Nat) : (encLe n v).length = n := by
  induction n generalizing v with
  | zero => rfl
  | succ n ih => simp [encLe, ih]

theorem decLe_encLe (h : v < 256 ^ n) : decLe n (encLe n v ++ rest) = .ok (v, rest) := by
  induction n generalizing v with
  | zero =>
    have : v = 0 := by simpa using h
    simp [decLe, encLe, this]
  | succ n ih =>
    have hdiv : v / 256 < 256 ^ n := by
      rw [Nat.pow_succ, Nat.mul_comm] at h
      exact Nat.div_lt_of_lt_mul h
    simp only [encLe, decLe, List.cons_append, ih hdiv, bind, Except.bind, UInt8.toNat_ofNat',
      Except.ok.injEq, Prod.mk.injEq, and_true]
    omega

theorem decLe_ok (h : decLe n bs = .ok (v, rest)) : v < 256 ^ n ∧ n + rest.length ≤ bs.length := by
  induction n generalizing bs v with
  | zero =>
    cases h
    simp
  | succ n ih =>
    cases bs with
    | nil => cases h
    | cons b bs =>
      obtain ⟨⟨w, bs'⟩, hrest, h⟩ := bind_ok h
      cases h
      obtain ⟨hw, hlen⟩ := ih hrest
      have hb := b.toNat_lt
      constructor
      · rw [Nat.pow_succ]
        omega
      · rw [List.length_cons]
        omega

/-- `postcard::fixint::le`. -/
def fixintLe (n : Nat) : Codec Nat where
  enc := encLe n
  dec := decLe n
  valid v := v < 256 ^ n
  dec_enc _ _ h := decLe_encLe h
  dec_ok _ _ _ h := by
    rw [encLe_length]
    exact decLe_ok h

def encVarint : Nat → Nat → List UInt8
  | 0, _ => []
  | m + 1, v => if v < 128 then [UInt8.ofNat v] else UInt8.ofNat (v % 128 + 128) :: encVarint m (v / 128)

/-- The last of the `m` bytes may be at most `last`, so that the value fits its type. -/
def decVarint (last : Nat) : Nat → List UInt8 → Except Error (Nat × List UInt8)
  | 0, _ => .error .deserializeBadVarint
  | _ + 1, [] => .error .deserializeUnexpectedEnd
  | m + 1, b :: bs =>
    if b.toNat < 128 then
      if m = 0 ∧ last < b.toNat then .error .deserializeBadVarint else .ok (b.toNat, bs)
    else do
      let (v, bs) ← decVarint last m bs
      .ok (b.toNat % 128 + 128 * v, bs)

theorem encVarint_length_mono (h : v ≤ w) : (encVarint m v).length ≤ (encVarint m w).length := by
  induction m generalizing v w with
  | zero => exact le_refl _
  | succ m ih =>
    have hrest := ih (Nat.div_le_div_right (c := 128) h)
    simp only [encVarint]
    split <;> split
    · exact le_refl _
    · simp
    · omega
    · simp only [List.length_cons]
      omega

theorem decVarint_encVarint (hlast : last < 128) (h : v < (last + 1) * 128 ^ k) :
    decVarint last (k + 1) (encVarint (k + 1) v ++ rest) = .ok (v, rest) := by
  induction k generalizing v with
  | zero =>
    have hv : v < 128 := by omega
    have hb : v % 2 ^ 8 = v := Nat.mod_eq_of_lt (by omega)
    have hle : ¬ last < v := by omega
    rw [encVarint, if_pos hv, List.cons_append, decVarint, UInt8.toNat_ofNat', hb, if_pos hv]
    simp only [hle, if_false, and_false, List.nil_append]
  | succ k ih =>
    rw [encVarint]
    split
    · rename_i hv
      have hb : v % 2 ^ 8 = v := Nat.mod_eq_of_lt (by omega)
      rw [List.cons_append, decVarint, UInt8.toNat_ofNat', hb, if_pos hv]
      rfl
    · have hb : (v % 128 + 128) % 2 ^ 8 = v % 128 + 128 := Nat.mod_eq_of_lt (by omega)
      have hdiv : v / 128 < (last + 1) * 128 ^ k := by
        rw [Nat.pow_succ, ← Nat.mul_assoc, Nat.mul_comm] at h
        exact Nat.div_lt_of_lt_mul h
      have hge : ¬ v % 128 + 128 < 128 := by omega
      rw [List.cons_append, decVarint, UInt8.toNat_ofNat', hb, if_neg hge, ih hdiv]
      simp only [bind, Except.bind, Except.ok.injEq, Prod.mk.injEq, and_true]
      omega

theorem decVarint_ok (h : decVarint last (k + 1) bs = .ok (v, rest)) :
    v < (last + 1) * 128 ^ k ∧ (encVarint (k + 1) v).length + rest.length ≤ bs.length := by
  induction k generalizing bs v with
  | zero =>
    cases bs with
    | nil => cases h
    | cons b bs =>
      rw [decVarint] at h
      split at h
      · rename_i hb
        split at h
        · cases h
        · rename_i hlast
          cases h
          have hle : b.toNat ≤ last := by omega
          simp only [Nat.zero_add, encVarint, hb, if_true, List.length_cons, List.length_nil]
          omega
      · obtain ⟨_, hrest, _⟩ := bind_ok h
        cases hrest
  | succ k ih =>
    have hpow : 128 ≤ (last + 1) * 128 ^ (k + 1) :=
      calc 128 ≤ 128 ^ (k + 1) := Nat.le_self_pow (Nat.succ_ne_zero k) 128
        _ ≤ (last + 1) * 128 ^ (k + 1) := Nat.le_mul_of_pos_left _ (Nat.succ_pos last)
    cases bs with
    | nil => cases h
    | cons b bs =>
      rw [decVarint] at h
      split at h
      · rename_i hb
        simp only [Nat.succ_ne_zero, false_and, if_false] at h
        cases h
        refine ⟨by omega, ?_⟩
        rw [encVarint, if_pos hb]
        simp [Nat.add_comm]
      · obtain ⟨⟨w, bs'⟩, hrest, h⟩ := bind_ok h
        cases h
        obtain ⟨hw, hlen⟩ := ih hrest
        refine ⟨?_, ?_⟩
        · have : (last + 1) * 128 ^ (k + 1) = 128 * ((last + 1) * 128 ^ k) := by
            rw [Nat.pow_succ, ← Nat.mul_assoc, Nat.mul_comm]
          omega
        · have hdiv : (b.toNat % 128 + 128 * w) / 128 = w := by omega
          rw [encVarint, hdiv]
          split
          · have : 0 < (encVarint (k + 1) w).length := by
              rw [encVarint]
              split <;> simp
            simp only [List.length_cons, List.length_nil]
            omega
          · simp only [List.length_cons]
            omega

def varint (k last : Nat) (hlast : last < 128) : Codec Nat where
  enc := encVarint (k + 1)
  dec := decVarint last (k + 1)
  valid v := v < (last + 1) * 128 ^ k
  dec_enc _ _ h := decVarint_encVarint hlast h
  dec_ok _ _ _ h := decVarint_ok h

def varintU16 : Codec Nat := varint 2 3 (by decide)
def varintU32 : Codec Nat := varint 4 15 (by decide)
def varintU64 : Codec Nat := varint 9 1 (by decide)

/-- The host's `usize` has 64 bits. -/
def usize : Codec Nat := varintU64

theorem usize_valid (h : v < 2 ^ 64) : usize.valid v := h

-- ---------------------------------------------------------------------------
-- Products and changes of representation
-- ---------------------------------------------------------------------------

def pair {α β : Type} (c : Codec α) (d : Codec β) : Codec (α × β) where
  enc x := c.enc x.1 ++ d.enc x.2
  dec bs := do
    let (a, bs) ← c.dec bs
    let (b, bs) ← d.dec bs
    .ok ((a, b), bs)
  valid x := c.valid x.1 ∧ d.valid x.2
  dec_enc x rest h := by
    rw [List.append_assoc, c.dec_enc _ _ h.1]
    simp only [bind, Except.bind, d.dec_enc _ _ h.2]
  dec_ok bs x rest h := by
    obtain ⟨⟨a, bs₁⟩, ha, h⟩ := bind_ok h
    obtain ⟨⟨b, bs₂⟩, hb, h⟩ := bind_ok h
    cases h
    obtain ⟨hva, hla⟩ := c.dec_ok _ _ _ ha
    obtain ⟨hvb, hlb⟩ := d.dec_ok _ _ _ hb
    refine ⟨⟨hva, hvb⟩, ?_⟩
    simp only [List.length_append]
    omega

def iso {α β : Type} (c : Codec α) (make : α → β) (view : β → α) (make_view : ∀ b, make (view b) = b)
    (view_make : ∀ a, c.valid a → view (make a) = a) : Codec β where
  enc b := c.enc (view b)
  dec bs := do
    let (a, bs) ← c.dec bs
    .ok (make a, bs)
  valid b := c.valid (view b)
  dec_enc b rest h := by
    simp only [c.dec_enc _ _ h, bind, Except.bind, make_view]
  dec_ok bs x rest h := by
    obtain ⟨⟨a, bs₁⟩, ha, h⟩ := bind_ok h
    cases h
    obtain ⟨hva, hla⟩ := c.dec_ok _ _ _ ha
    rw [view_make a hva]
    exact ⟨hva, hla⟩

def leU32 : Codec UInt32 :=
  (fixintLe 4).iso UInt32.ofNat UInt32.toNat (fun _ => UInt32.ofNat_toNat)
    (fun _ h => UInt32.toNat_ofNat_of_lt h)

def leU64 : Codec UInt64 :=
  (fixintLe 8).iso UInt64.ofNat UInt64.toNat (fun _ => UInt64.ofNat_toNat)
    (fun _ h => UInt64.toNat_ofNat_of_lt h)

theorem leU32_valid (x : UInt32) : leU32.valid x := x.toNat_lt

theorem leU64_valid (x : UInt64) : leU64.valid x := x.toNat_lt

/-- Two's complement. -/
def leI32 : Codec Int32 :=
  leU32.iso UInt32.toInt32 Int32.toUInt32 Int32.toInt32_toUInt32 (fun a _ => UInt32.toUInt32_toInt32 a)

def u16 : Codec UInt16 :=
  varintU16.iso UInt16.ofNat UInt16.toNat (fun _ => UInt16.ofNat_toNat)
    (fun _ h => UInt16.toNat_ofNat_of_lt h)

def u64 : Codec UInt64 :=
  varintU64.iso UInt64.ofNat UInt64.toNat (fun _ => UInt64.ofNat_toNat)
    (fun _ h => UInt64.toNat_ofNat_of_lt h)

/-- `(n << 1) ^ (n >> 31)`: small magnitudes of either sign get small numbers. -/
def zigzag (i : Int) : Nat := if 0 ≤ i then 2 * i.toNat else 2 * (-i).toNat - 1

def unzigzag (n : Nat) : Int := if n % 2 = 0 then n / 2 else -((n + 1) / 2 : Nat)

theorem unzigzag_zigzag (i : Int) : unzigzag (zigzag i) = i := by
  unfold unzigzag zigzag
  split <;> split <;> omega

theorem zigzag_unzigzag (n : Nat) : zigzag (unzigzag n) = n := by
  unfold unzigzag zigzag
  split <;> split <;> omega

def i32 : Codec Int32 :=
  varintU32.iso (fun n => Int32.ofInt (unzigzag n)) (fun i => zigzag i.toInt)
    (fun i => by rw [unzigzag_zigzag, Int32.ofInt_toInt])
    (fun n h => by
      have hn : n < 2 ^ 32 := h
      have hlo : -2 ^ 31 ≤ unzigzag n := by
        unfold unzigzag
        split <;> omega
      have hhi : unzigzag n < 2 ^ 31 := by
        unfold unzigzag
        split <;> omega
      rw [Int32.toInt_ofInt_of_le hlo hhi, zigzag_unzigzag])

-- ---------------------------------------------------------------------------
-- Flags and options
-- ---------------------------------------------------------------------------

def bool : Codec Bool where
  enc b := [if b then 1 else 0]
  dec
    | [] => .error .deserializeUnexpectedEnd
    | b :: bs =>
      if b = 0 then .ok (false, bs) else if b = 1 then .ok (true, bs)
      else .error .deserializeBadBool
  valid _ := True
  dec_enc b rest _ := by cases b <;> rfl
  dec_ok bs x rest h := by
    cases bs with
    | nil => cases h
    | cons b bs =>
      simp only at h
      split at h
      · cases h
        simp [Nat.add_comm]
      · split at h
        · cases h
          simp [Nat.add_comm]
        · cases h

def option {α : Type} (c : Codec α) : Codec (Option α) where
  enc
    | none => [0]
    | some x => 1 :: c.enc x
  dec
    | [] => .error .deserializeUnexpectedEnd
    | b :: bs =>
      if b = 0 then .ok (none, bs)
      else if b = 1 then do
        let (x, bs) ← c.dec bs
        .ok (some x, bs)
      else .error .deserializeBadOption
  valid o := ∀ x ∈ o, c.valid x
  dec_enc o rest h := by
    cases o with
    | none => rfl
    | some x =>
      have h1 : (1 : UInt8) ≠ 0 := by decide
      simp only [List.cons_append, h1, if_false, if_true, c.dec_enc x rest (h x rfl), bind,
        Except.bind]
  dec_ok bs o rest h := by
    cases bs with
    | nil => cases h
    | cons b bs =>
      simp only at h
      split at h
      · cases h
        simp [Nat.add_comm]
      · split at h
        · obtain ⟨⟨x, bs₁⟩, hx, h⟩ := bind_ok h
          cases h
          obtain ⟨hv, hl⟩ := c.dec_ok _ _ _ hx
          refine ⟨?_, ?_⟩
          · rintro _ ⟨⟩
            exact hv
          · simp only [List.length_cons]
            omega
        · cases h

-- ---------------------------------------------------------------------------
-- Sequences
-- ---------------------------------------------------------------------------

section
variable {α : Type} (c : Codec α)

/-- `n` values one after another. -/
def decN : Nat → List UInt8 → Except Error (List α × List UInt8)
  | 0, bs => .ok ([], bs)
  | n + 1, bs => do
    let (x, bs) ← c.dec bs
    let (l, bs) ← decN n bs
    .ok (x :: l, bs)

theorem decN_enc {l : List α} (h : ∀ x ∈ l, c.valid x) :
    c.decN l.length (l.flatMap c.enc ++ rest) = .ok (l, rest) := by
  induction l with
  | nil => rfl
  | cons x l ih =>
    have hx := c.dec_enc x (l.flatMap c.enc ++ rest) (h x (List.mem_cons_self ..))
    have hl := ih fun y hy => h y (List.mem_cons_of_mem _ hy)
    simp only [List.flatMap_cons, List.length_cons, List.append_assoc, decN, hx, hl, bind,
      Except.bind]

theorem decN_ok (h : c.decN n bs = .ok (l, rest)) : l.length = n ∧ (∀ x ∈ l, c.valid x) ∧
    (l.flatMap c.enc).length + rest.length ≤ bs.length := by
  induction n generalizing bs l with
  | zero =>
    cases h
    simp
  | succ n ih =>
    obtain ⟨⟨x, bs₁⟩, hx, h⟩ := bind_ok h
    obtain ⟨⟨l', bs₂⟩, hl, h⟩ := bind_ok h
    cases h
    obtain ⟨hv, hlen⟩ := c.dec_ok _ _ _ hx
    obtain ⟨hn, hvs, hlens⟩ := ih hl
    refine ⟨by simp [hn], ?_, ?_⟩
    · intro y hy
      rcases List.mem_cons.mp hy with rfl | hy
      · exact hv
      · exact hvs y hy
    · simp only [List.flatMap_cons, List.length_append]
      omega

def seq : Codec (List α) where
  enc l := usize.enc l.length ++ l.flatMap c.enc
  dec bs := do
    let (n, bs) ← usize.dec bs
    c.decN n bs
  valid l := usize.valid l.length ∧ ∀ x ∈ l, c.valid x
  dec_enc l rest h := by
    rw [List.append_assoc, usize.dec_enc _ _ h.1]
    exact c.decN_enc h.2
  dec_ok bs l rest h := by
    obtain ⟨⟨n, bs₁⟩, hn, h⟩ := bind_ok h
    obtain ⟨hv, hlen⟩ := usize.dec_ok _ _ _ hn
    obtain ⟨rfl, hvs, hlens⟩ := c.decN_ok h
    refine ⟨⟨hv, hvs⟩, ?_⟩
    rw [List.length_append]
    omega

theorem seq_nil_valid : c.seq.valid [] := ⟨usize_valid (v := 0) (by decide), by simp⟩

def array (n : Nat) : Codec (Vector α n) where
  enc v := v.toList.flatMap c.enc
  dec bs := do
    let (l, bs) ← c.decN n bs
    if h : l.length = n then .ok (⟨l.toArray, by simp [h]⟩, bs) else .error .serdeDeCustom
  valid v := ∀ x ∈ v.toList, c.valid x
  dec_enc v rest h := by
    have hdec : c.decN v.toList.length (v.toList.flatMap c.enc ++ rest) = .ok (v.toList, rest) :=
      c.decN_enc h
    rw [Vector.length_toList] at hdec
    simp only [hdec, bind, Except.bind, Vector.length_toList, dite_true]
    rfl
  dec_ok bs v rest h := by
    obtain ⟨⟨l, bs₁⟩, hl, h⟩ := bind_ok h
    obtain ⟨hn, hvs, hlens⟩ := c.decN_ok hl
    simp only [hn, dite_true] at h
    cases h
    exact ⟨hvs, hlens⟩

end

def bytes : Codec (List UInt8) := byte.seq

theorem array_byte_valid (v : Vector UInt8 n) : (byte.array n).valid v := fun _ _ => trivial

def utf8 (s : String) : List UInt8 := s.toByteArray.data.toList

def string : Codec String where
  enc s := usize.enc (utf8 s).length ++ utf8 s
  dec bs := do
    let (n, bs) ← usize.dec bs
    if n ≤ bs.length then
      match String.fromUTF8? ⟨(bs.take n).toArray⟩ with
      | some s => .ok (s, bs.drop n)
      | none => .error .deserializeBadUtf8
    else .error .deserializeUnexpectedEnd
  valid s := usize.valid (utf8 s).length
  dec_enc s rest h := by
    have hs : String.fromUTF8? ⟨(utf8 s).toArray⟩ = some s := by
      simp [utf8, String.fromUTF8?, s.isValidUTF8, String.fromUTF8]
    rw [List.append_assoc, usize.dec_enc _ _ h]
    simp [bind, Except.bind, hs]
  dec_ok bs s rest h := by
    obtain ⟨⟨n, bs₁⟩, hn, h⟩ := bind_ok h
    obtain ⟨hv, hlen⟩ := usize.dec_ok _ _ _ hn
    simp only at h
    split at h
    · rename_i hle
      split at h
      · rename_i s' hs
        cases h
        have hbytes : utf8 s = bs₁.take n := by
          unfold String.fromUTF8? at hs
          split at hs
          · cases hs
            simp [utf8, String.fromUTF8]
          · cases hs
        have hn' : (utf8 s).length = n := by
          rw [hbytes, List.length_take]
          omega
        rw [List.length_append, hn', List.length_drop]
        exact ⟨hv, by omega⟩
      · cases h
    · cases h

-- ---------------------------------------------------------------------------
-- Variants and maps
-- ---------------------------------------------------------------------------

def tag (n : Nat) (hn : n < 2 ^ 32) : Codec (Fin n) where
  enc i := varintU32.enc i
  dec bs := do
    let (i, bs) ← varintU32.dec bs
    if h : i < n then .ok (⟨i, h⟩, bs) else .error .serdeDeCustom
  valid _ := True
  dec_enc i rest _ := by
    have hi : varintU32.valid i := Nat.lt_trans i.isLt hn
    rw [varintU32.dec_enc _ _ hi]
    simp only [bind, Except.bind, i.isLt, dite_true]
  dec_ok bs i rest h := by
    obtain ⟨⟨j, bs₁⟩, hj, h⟩ := bind_ok h
    simp only at h
    split at h
    · cases h
      exact ⟨trivial, (varintU32.dec_ok _ _ _ hj).2⟩
    · cases h

def variants {n : Nat} {β : Fin n → Type} (hn : n < 2 ^ 32) (c : ∀ i, Codec (β i)) :
    Codec (Σ i, β i) where
  enc x := (tag n hn).enc x.1 ++ (c x.1).enc x.2
  dec bs := do
    let (i, bs) ← (tag n hn).dec bs
    let (x, bs) ← (c i).dec bs
    .ok (⟨i, x⟩, bs)
  valid x := (c x.1).valid x.2
  dec_enc x rest h := by
    rw [List.append_assoc, (tag n hn).dec_enc _ _ trivial]
    simp only [bind, Except.bind, (c x.1).dec_enc _ _ h]
  dec_ok bs x rest h := by
    obtain ⟨⟨i, bs₁⟩, hi, h⟩ := bind_ok h
    obtain ⟨⟨y, bs₂⟩, hy, h⟩ := bind_ok h
    cases h
    obtain ⟨-, hlen⟩ := (tag n hn).dec_ok _ _ _ hi
    obtain ⟨hv, hlen'⟩ := (c i).dec_ok _ _ _ hy
    refine ⟨hv, ?_⟩
    simp only [List.length_append]
    omega

theorem length_flatMap_le_of_subperm {α : Type} {c : Codec α} {l l' : List α} (h : l.Subperm l') :
    (l.flatMap c.enc).length ≤ (l'.flatMap c.enc).length := by
  obtain ⟨l₁, hperm, hsub⟩ := h
  rw [← (hperm.flatMap_right c.enc).length_eq]
  exact (hsub.flatMap c.enc).length_le

theorem seq_of_subperm {α : Type} {c : Codec α} {l l' : List α} (h : l.Subperm l')
    (hv : c.seq.valid l') : c.seq.valid l ∧ (c.seq.enc l).length ≤ (c.seq.enc l').length := by
  have hlen := h.length_le
  have henc := encVarint_length_mono (m := 10) hlen
  have hflat := length_flatMap_le_of_subperm (c := c) h
  refine ⟨⟨Nat.lt_of_le_of_lt hlen hv.1, fun x hx => hv.2 x (h.subset hx)⟩, ?_⟩
  simp only [seq, List.length_append]
  exact Nat.add_le_add henc hflat

/-- A map with ordered keys: the entries as a sequence, in key order when
encoded; on decoding a later entry for a key replaces an earlier one. -/
def btreeMap {κ ν : Type} {ι : Type} [DecidableEq κ] [LinearOrder ι] (c : Codec (κ × ν)) (key : κ → ι)
    (hkey : Function.Injective key) : Codec (List (κ × ν)) where
  enc := c.seq.enc
  dec bs := do
    let (l, bs) ← c.seq.dec bs
    .ok (sortByKey (fun p => key p.1) (HashMap.ofList l).entries, bs)
  valid l := c.seq.valid l ∧ (l.map Prod.fst).Nodup ∧ l.Pairwise fun p q => key p.1 ≤ key q.1
  dec_enc l rest h := by
    obtain ⟨hv, hnodup, hsorted⟩ := h
    have hk : (l.map fun p => key p.1).Nodup := by
      have := hnodup.map hkey
      rwa [List.map_map] at this
    rw [c.seq.dec_enc _ _ hv]
    simp only [bind, Except.bind]
    rw [← sortByKey_eq_of_perm (HashMap.ofList_perm hnodup).symm hk, sortByKey_of_pairwise hsorted]
  dec_ok bs l rest h := by
    obtain ⟨⟨l₀, bs₁⟩, hl₀, h⟩ := bind_ok h
    cases h
    obtain ⟨hv, hlen⟩ := c.seq.dec_ok _ _ _ hl₀
    have hsub := (sortByKey_perm (f := fun p : κ × ν => key p.1) (HashMap.ofList l₀).entries).subperm
      |>.trans (HashMap.ofList_subperm l₀)
    obtain ⟨hv', hlen'⟩ := seq_of_subperm hsub hv
    exact ⟨⟨hv', nodup_sortByKey_map (HashMap.ofList l₀).nodup, sortByKey_pairwise _⟩, by omega⟩

end Codec

end Postcard

end EdgeLibos.Lib
