import EdgeLibos.Mm.ArenaLaws

/-!
# Best fit

A request fits in a range of offsets when an aligned start leaves room for it
there. `alloc` fails only when it fits in no hole and not in the tail; it
takes a hole that wastes least, and the tail only when no hole will do.
-/

namespace EdgeLibos.Mm

open Lib

def HasRoom (align len lo hi : Nat) : Prop := ∃ o, align ∣ o ∧ lo ≤ o ∧ o + len ≤ hi

theorem alignUp_least (hk : k < 64) (hn : off ≤ ARENA_SIZE) (hd : 2 ^ k ∣ o) (hle : off ≤ o) :
    alignUp off (2 ^ k) ≤ o := by
  obtain ⟨-, h2, h3⟩ := alignUp_arena hk hn
  obtain ⟨m, hm⟩ := h3
  obtain ⟨n, rfl⟩ := hd
  rw [hm] at h2 ⊢
  have hlt : 2 ^ k * m < 2 ^ k * (n + 1) := by
    rw [Nat.mul_add, Nat.mul_one]
    omega
  exact Nat.mul_le_mul_left _ (Nat.lt_succ_iff.mp (Nat.lt_of_mul_lt_mul_left hlt))

theorem alignUp_le_iff_hasRoom (hk : k < 64) (hn : off ≤ ARENA_SIZE) :
    alignUp off (2 ^ k) + len ≤ hi ↔ HasRoom (2 ^ k) len off hi := by
  obtain ⟨h1, -, h3⟩ := alignUp_arena hk hn
  constructor
  · intro h
    exact ⟨_, h3, h1, h⟩
  · rintro ⟨o, hd, hle, hroom⟩
    have := alignUp_least hk hn hd hle
    omega

theorem fits_iff_hasRoom {r : Span} (hk : k < 64) (hn : r.1 ≤ ARENA_SIZE) :
    Fits len (2 ^ k) r ↔ HasRoom (2 ^ k) len r.1 (r.1 + r.2) := by
  obtain ⟨h1, -, -⟩ := alignUp_arena hk hn
  rw [← alignUp_le_iff_hasRoom hk hn]
  unfold Fits
  omega

theorem Arena.Ok.fits_iff {a : Arena} (ha : a.Ok) (hk : k < 64) (hr : r ∈ a.freeList) :
    Fits len (2 ^ k) r ↔ HasRoom (2 ^ k) len r.1 (r.1 + r.2) := by
  have hin := ha.inside r hr
  have hused := ha.used_le
  exact fits_iff_hasRoom hk (by omega)

theorem alloc_best_fit (a : Arena) (ha : a.Ok) (k len : Nat) (hk : k < 64) :
    (∀ addr a', a.alloc len (2 ^ k) = some (addr, a') →
      ∃ o, addr = (a.base + o) % 2 ^ 32 ∧ 2 ^ k ∣ o ∧
        ((∃ r ∈ a.freeList, Set.Ico o (o + len) ⊆ Span.points r ∧
            r.1 ≤ o ∧ o + len ≤ r.1 + r.2 ∧ a'.used = a.used ∧
            ∀ s ∈ a.freeList, HasRoom (2 ^ k) len s.1 (s.1 + s.2) →
              waste len (2 ^ k) r ≤ waste len (2 ^ k) s) ∨
          ((∀ r ∈ a.freeList, ¬ HasRoom (2 ^ k) len r.1 (r.1 + r.2)) ∧
            a.used ≤ o ∧ o + len ≤ ARENA_SIZE ∧ a'.used = o + len)) ∧
        covers a'.freeList = covers a.freeList \ Set.Ico o (o + len) ∧
        a'.base = a.base ∧ a'.Ok) ∧
    (a.alloc len (2 ^ k) = none ↔
      (∀ r ∈ a.freeList, ¬ HasRoom (2 ^ k) len r.1 (r.1 + r.2)) ∧
        ¬ HasRoom (2 ^ k) len a.used ARENA_SIZE) := by
  have hholes : (∀ r ∈ a.freeList, ¬ Fits len (2 ^ k) r) ↔
      ∀ r ∈ a.freeList, ¬ HasRoom (2 ^ k) len r.1 (r.1 + r.2) :=
    forall₂_congr fun r hr => not_congr (ha.fits_iff hk hr)
  constructor
  · intro addr a' h
    obtain ⟨o, haddr, hp⟩ := Arena.alloc_placed ha hk h
    refine ⟨o, haddr, hp.aligned, ?_, hp.holes, Arena.alloc_base h, hp.ok⟩
    rcases hp.place with ⟨r, hr, -, h1, h2, hleast, hu⟩ | ⟨hno, h1, hu⟩
    · refine .inl ⟨r, hr, ?_, h1, h2, hu, ?_⟩
      · intro x hx
        simp only [Set.mem_Ico] at hx
        simp only [Span.mem_points]
        omega
      · intro s hs hroom
        exact hleast s hs ((ha.fits_iff hk hs).mpr hroom)
    · exact .inr ⟨hholes.mp hno, h1, hp.inside, hu⟩
  · rw [Arena.alloc_none_iff, hholes, ← alignUp_le_iff_hasRoom hk ha.used_le, Nat.not_le]

def twoHoles : Arena := { base := 0x100000, used := 350, freeList := [(0, 100), (300, 50)] }

theorem alloc_best_fit_two_holes :
    twoHoles.Ok ∧
    twoHoles.alloc 30 (2 ^ 3) =
      some (0x100130, { twoHoles with freeList := [(0, 100), (300, 4), (334, 16)] }) ∧
    twoHoles.alloc ARENA_SIZE (2 ^ 3) = none ∧
    (∀ r ∈ twoHoles.freeList, ¬ HasRoom (2 ^ 3) ARENA_SIZE r.1 (r.1 + r.2)) ∧
    ∃ o, 0x100130 = (twoHoles.base + o) % 2 ^ 32 ∧ 2 ^ 3 ∣ o := by
  have hok : twoHoles.Ok := by decide
  have hsome : twoHoles.alloc 30 (2 ^ 3) =
      some (0x100130, { twoHoles with freeList := [(0, 100), (300, 4), (334, 16)] }) := by decide
  have hnone : twoHoles.alloc ARENA_SIZE (2 ^ 3) = none := by decide
  obtain ⟨o, haddr, hd, -⟩ := (alloc_best_fit twoHoles hok 3 30 (by decide)).1 _ _ hsome
  have hno := ((alloc_best_fit twoHoles hok 3 ARENA_SIZE (by decide)).2.mp hnone).1
  exact ⟨hok, hsome, hnone, hno, o, haddr, hd⟩

end EdgeLibos.Mm
