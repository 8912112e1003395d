import EdgeLibos.Lib.Runs
import EdgeLibos.Mm.Layout

/-!
# Allocator safety over whole runs

A run is a sequence of allocator calls together with the set `live` of the
bytes the caller holds: what a successful `mmap` or a growing `growInPlace`
added and no `munmap` has taken back. The caller frees and grows only ranges
it holds, inside one arena, and the memory size it reports never shrinks and
stays below 4 GiB. Then no call ever hands out a byte that is still held, and
what is held avoids every hole and every tail, unless a range is grown to a
length at which the sum with the bump pointer wraps.
-/

namespace EdgeLibos.Mm

open Lib

inductive Call
  | mmap (curMemSize len : Nat) (prot flags : BitVec 32) (fd off : Int)
  | munmap (addr len : Nat)
  | growInPlace (old oldLen newLen : Nat)

structure Session where
  mm : LinearAllocator
  curMemSize : Nat
  live : Set Nat

def Session.start : Session := { mm := .new, curMemSize := 0, live := ∅ }

def Session.added (s : Session) : Call → Set Nat
  | .mmap cur len prot flags fd off =>
    match (s.mm.mmap cur len prot flags fd off).1 with
    | .ok addr => Set.Ico addr (addr + len)
    | _ => ∅
  | .munmap .. => ∅
  | .growInPlace old oldLen newLen =>
    match (s.mm.growInPlace old oldLen newLen).1 with
    | .ok _ => Set.Ico (old + oldLen) (old + newLen)
    | .error _ => ∅

def Session.removed (s : Session) : Call → Set Nat
  | .munmap addr len => if (s.mm.munmap addr len).1 = 0 then Set.Ico addr (addr + len) else ∅
  | _ => ∅

def Session.mmOf (s : Session) : Call → LinearAllocator
  | .mmap cur len prot flags fd off => (s.mm.mmap cur len prot flags fd off).2
  | .munmap addr len => (s.mm.munmap addr len).2
  | .growInPlace old oldLen newLen => (s.mm.growInPlace old oldLen newLen).2

def Session.curOf (s : Session) : Call → Nat
  | .mmap cur .. => cur
  | _ => s.curMemSize

def Session.next (s : Session) (c : Call) : Option Session :=
  some { mm := s.mmOf c, curMemSize := s.curOf c, live := (s.live \ s.removed c) ∪ s.added c }

def Session.Holds (s : Session) (addr len : Nat) : Prop :=
  0 < len ∧ Set.Ico addr (addr + len) ⊆ s.live ∧
    ∃ a ∈ s.mm.arenas, a.base ≤ addr ∧ addr + len ≤ a.base + ARENA_SIZE

def Session.Allowed (s : Session) : Call → Prop
  | .mmap cur .. => s.curMemSize ≤ cur ∧ cur < 2 ^ 32
  | .munmap addr len => s.Holds addr len
  | .growInPlace old oldLen newLen => s.Holds old oldLen ∧ newLen < 2 ^ 64

/-- A range at the bump pointer is grown to an end that is a 64-bit distance from the arena. -/
def Session.EndFits (s : Session) : Call → Prop
  | .growInPlace old oldLen newLen =>
    ∀ a ∈ s.mm.arenas, a.base ≤ old → old - a.base + oldLen = a.used → old - a.base + newLen < 2 ^ 64
  | _ => True

/-- The invariant: everything held is handed out, and the arenas lie inside
the memory the caller has reported. -/
structure Session.Inv (s : Session) : Prop where
  mm : s.mm.Ok
  live : s.live ⊆ s.mm.handedOut
  inside : ∀ a ∈ s.mm.arenas, a.base + ARENA_SIZE ≤ s.curMemSize
  top : s.curMemSize < 2 ^ 32

theorem Session.start_inv : Session.start.Inv :=
  ⟨LinearAllocator.new_ok, Set.empty_subset _, by simp [Session.start, LinearAllocator.new], by decide⟩

/-- A held range can be freed: its arena is the one that handed it out. -/
theorem Session.Inv.unmappable {s : Session} (h : s.Inv) (hh : s.Holds addr len) :
    s.mm.Unmappable addr len := by
  obtain ⟨hpos, hlive, -⟩ := hh
  intro _ a ha hbase hend
  have hoff (x : Nat) (h1 : addr ≤ x) (h2 : x < addr + len) : x - a.base ∉ a.spare := by
    obtain ⟨b, hb, hbx⟩ := h.live (hlive ⟨h1, h2⟩)
    have hba : b = a := h.mm.unique hb ha hbx.1 hbx.2.1 (by omega) (by omega)
    exact hba ▸ hbx.2.2
  refine ⟨?_, ?_⟩
  · have := Arena.used_of_not_spare (hoff (addr + len - 1) (by omega) (by omega)) (by omega)
    omega
  · intro r hr
    have hne := (h.mm.arenas a ha).holes.nonempty r hr
    rw [Span.apart_iff_disjoint hpos hne, Set.disjoint_left]
    intro x hx hxr
    simp only [Span.mem_points] at hx
    refine hoff (a.base + x) (by omega) (by omega) (.inl ⟨r, hr, ?_⟩)
    rwa [Nat.add_sub_cancel_left]

theorem Session.Inv.noWrap {s : Session} (h : s.Inv) (hh : s.Holds old oldLen)
    (hfits : s.EndFits (.growInPlace old oldLen newLen)) : s.mm.NoWrap old oldLen newLen := by
  obtain ⟨-, -, b, hb, hlow, hhigh⟩ := hh
  have hin := h.inside b hb
  have htop := h.top
  intro a ha hbase hend
  rw [Nat.mod_eq_of_lt (by omega)] at hend
  have hlt := hfits a ha hbase hend
  exact ⟨hend, by omega⟩

/-- Where the end does not fit, the range that is added leaves memory. -/
theorem Session.Inv.added_leaves {s : Session} (h : s.Inv) (ha : s.Allowed c) (hc : ¬ s.EndFits c) :
    ¬ s.added c ⊆ Set.Ico FIRST_ARENA_BASE s.curMemSize := by
  cases c with
  | mmap cur len prot flags fd off => exact absurd trivial hc
  | munmap addr len => exact absurd trivial hc
  | growInPlace old oldLen newLen =>
    obtain ⟨⟨hpos, -, b, hb, hlow, hhigh⟩, hnew⟩ := ha
    have hin := h.inside b hb
    have htop := h.top
    simp only [Session.EndFits, not_forall, Nat.not_lt] at hc
    obtain ⟨a, ha, hbase, hend, hwrap⟩ := hc
    have hused := (h.mm.arenas a ha).used_le
    have hsum : (a.used + (newLen - oldLen)) % 2 ^ 64 ≤ ARENA_SIZE := by omega
    have hends : (old - a.base + oldLen) % 2 ^ 64 = a.used := by
      rw [Nat.mod_eq_of_lt (by omega)]
      exact hend
    have hgrown := growFirst_isSome ha hbase hends hsum
    obtain ⟨arenas, harenas⟩ := Option.isSome_iff_exists.mp hgrown
    have hlt : ¬ newLen ≤ oldLen := by omega
    have hok : (s.mm.growInPlace old oldLen newLen).1 = .ok old := by
      simp only [LinearAllocator.growInPlace, if_neg hlt, harenas]
    intro hsub
    have hlast : old + newLen - 1 ∈ s.added (.growInPlace old oldLen newLen) := by
      simp only [Session.added, hok, Set.mem_Ico]
      omega
    have := (hsub hlast).2
    omega

/-- One step: what is added was not held, and the invariant is kept. -/
theorem Session.Inv.step {s : Session} (h : s.Inv) (ha : s.Allowed c) (hfits : s.EndFits c)
    (hn : s.next c = some s') : Disjoint (s.added c) s.live ∧ s'.Inv := by
  obtain rfl := Option.some.inj hn
  cases c with
  | mmap cur len prot flags fd off =>
    obtain ⟨hmono, htop⟩ := ha
    have hroom : s.mm.PlacesBelowTop cur len := fun _ hle => Nat.lt_of_le_of_lt hle htop
    have hgrow : ∀ a ∈ s.mm.arenas, a.base + ARENA_SIZE ≤ cur := fun a ha =>
      (h.inside a ha).trans hmono
    cases hr : s.mm.mmap cur len prot flags fd off with
    | mk r mm' =>
      cases r with
      | ok addr =>
        obtain ⟨hok, -, -, -, hdis, hsub, hbases⟩ := LinearAllocator.mmap_ok h.mm hroom hr
        simp only [Session.added, Session.removed, Session.mmOf, Session.curOf, hr]
        refine ⟨hdis.mono_right h.live, hok, ?_, ?_, htop⟩
        · rw [Set.sdiff_empty]
          exact (Set.union_subset_union_left _ h.live).trans hsub
        · intro b hb
          rcases hbases b hb with hb | ⟨c, hc, hcb⟩
          · exact hb
          · exact hcb ▸ hgrow c hc
      | needGrow pages =>
        obtain rfl := LinearAllocator.mmap_not_ok hr (by simp)
        simp only [Session.added, Session.removed, Session.mmOf, Session.curOf, hr]
        exact ⟨Set.empty_disjoint _, h.mm, by simpa using h.live, hgrow, htop⟩
      | err e =>
        obtain rfl := LinearAllocator.mmap_not_ok hr (by simp)
        simp only [Session.added, Session.removed, Session.mmOf, Session.curOf, hr]
        exact ⟨Set.empty_disjoint _, h.mm, by simpa using h.live, hgrow, htop⟩
  | munmap addr len =>
    cases hr : s.mm.munmap addr len with
    | mk r mm' =>
      obtain ⟨hok, hsub, hsame, hbases⟩ := LinearAllocator.munmap_ok h.mm (h.unmappable ha) hr
      simp only [Session.added, Session.removed, Session.mmOf, Session.curOf, hr, Set.union_empty]
      refine ⟨Set.empty_disjoint _, hok, ?_, ?_, h.top⟩
      · split
        · exact (Set.sdiff_subset_sdiff_left h.live).trans hsub
        · rename_i hne
          rw [Set.sdiff_empty, hsame hne]
          exact h.live
      · intro b hb
        obtain ⟨c, hc, hcb⟩ := List.mem_map.mp (hbases ▸ List.mem_map_of_mem hb)
        exact hcb ▸ h.inside c hc
  | growInPlace old oldLen newLen =>
    cases hr : s.mm.growInPlace old oldLen newLen with
    | mk r mm' =>
      obtain ⟨hok, hbases, herr, hgood⟩ := LinearAllocator.growInPlace_ok h.mm (h.noWrap ha.1 hfits) hr
      have hinside : ∀ a ∈ mm'.arenas, a.base + ARENA_SIZE ≤ s.curMemSize := by
        intro b hb
        obtain ⟨c, hc, hcb⟩ := List.mem_map.mp (hbases ▸ List.mem_map_of_mem hb)
        exact hcb ▸ h.inside c hc
      simp only [Session.added, Session.removed, Session.mmOf, Session.curOf, hr, Set.sdiff_empty]
      cases r with
      | ok addr =>
        obtain ⟨hdis, hsub⟩ := hgood addr rfl
        exact ⟨hdis.mono_right h.live, hok, (Set.union_subset_union_left _ h.live).trans hsub,
          hinside, h.top⟩
      | error e =>
        obtain rfl := herr e rfl
        exact ⟨Set.empty_disjoint _, h.mm, by simpa using h.live, h.inside, h.top⟩

theorem Session.reaches_inv
    (h : Reaches Session.next (fun s c => s.Allowed c ∧ s.EndFits c) Session.start s) : s.Inv :=
  h.invariant Session.start_inv fun _ _ _ hi ha hn => (hi.step ha.1 ha.2 hn).2

theorem Session.Inv.disjoint_hole {s : Session} (h : s.Inv) (ha : a ∈ s.mm.arenas)
    (hr : r ∈ a.freeList) :
    Disjoint s.live (Set.Ico (a.base + r.1) (a.base + r.1 + r.2)) := by
  rw [Set.disjoint_left]
  intro x hx hxr
  simp only [Set.mem_Ico] at hxr
  have hok := h.mm.arenas a ha
  have hin := hok.inside r hr
  have hused := hok.used_le
  obtain ⟨b, hb, hbx⟩ := h.live hx
  obtain rfl : b = a := h.mm.unique hb ha hbx.1 hbx.2.1 (by omega) (by omega)
  refine hbx.2.2 (.inl ⟨r, hr, ?_⟩)
  simp only [Span.mem_points]
  omega

theorem Session.Inv.disjoint_tail {s : Session} (h : s.Inv) (ha : a ∈ s.mm.arenas) :
    Disjoint s.live (Set.Ico (a.base + a.used) (a.base + ARENA_SIZE)) := by
  rw [Set.disjoint_left]
  intro x hx hxt
  simp only [Set.mem_Ico] at hxt
  obtain ⟨b, hb, hbx⟩ := h.live hx
  obtain rfl : b = a := h.mm.unique hb ha hbx.1 hbx.2.1 (by omega) (by omega)
  exact hbx.2.2 (.inr ⟨by omega, by omega⟩)

/-- In a run in which no sum wraps, every such call the caller may make next hands
out only bytes nobody holds, at an aligned address above the first arena base; and in
the state itself what is held lies between the first arena base and the end of
memory, outside every hole and every tail. The next call at which the sum wraps adds
a range that leaves memory. -/
theorem allocator_safe (h : Reaches Session.next (fun s c => s.Allowed c ∧ s.EndFits c) Session.start s) :
    (∀ c, s.Allowed c → s.EndFits c → Disjoint (s.added c) s.live) ∧
    (∀ c, s.Allowed c → ¬ s.EndFits c → ¬ s.added c ⊆ Set.Ico FIRST_ARENA_BASE s.curMemSize) ∧
    (∀ cur len prot flags fd off addr, s.Allowed (.mmap cur len prot flags fd off) →
      (s.mm.mmap cur len prot flags fd off).1 = .ok addr → 8 ∣ addr ∧ FIRST_ARENA_BASE ≤ addr) ∧
    s.live ⊆ Set.Ico FIRST_ARENA_BASE s.curMemSize ∧
    ∀ a ∈ s.mm.arenas,
      (∀ r ∈ a.freeList, Disjoint s.live (Set.Ico (a.base + r.1) (a.base + r.1 + r.2))) ∧
      Disjoint s.live (Set.Ico (a.base + a.used) (a.base + ARENA_SIZE)) := by
  have hi := Session.reaches_inv h
  refine ⟨fun c hc hfits => (hi.step hc hfits rfl).1, fun c hc hwraps => hi.added_leaves hc hwraps, ?_, ?_, ?_⟩
  · intro cur len prot flags fd off addr hallowed hr
    have hroom : s.mm.PlacesBelowTop cur len := fun _ hle => Nat.lt_of_le_of_lt hle hallowed.2
    have hres : s.mm.mmap cur len prot flags fd off =
        (.ok addr, (s.mm.mmap cur len prot flags fd off).2) := Prod.ext hr rfl
    obtain ⟨-, h8, hfirst, -⟩ := LinearAllocator.mmap_ok hi.mm hroom hres
    exact ⟨h8, hfirst⟩
  · intro x hx
    obtain ⟨a, ha, hax⟩ := hi.live hx
    exact ⟨(hi.mm.first a ha).trans hax.1, Nat.lt_of_lt_of_le hax.2.1 (hi.inside a ha)⟩
  · intro a ha
    exact ⟨fun r hr => hi.disjoint_hole ha hr, hi.disjoint_tail ha⟩

def mapped (len : Nat) : Session :=
  { mm := { arenas := [{ base := 0x100000, used := len, freeList := [] }], highWater := 0x140000 }
    curMemSize := 0x140000
    live := Set.Ico 0x100000 (0x100000 + len) }

def mapCall (len : Nat) : Call := .mmap 0x140000 len 3#32 0x22#32 (-1) 0

theorem mapped_reached
    (h : LinearAllocator.new.mmap 0x140000 len 3#32 0x22#32 (-1) 0 = (.ok 0x100000, (mapped len).mm)) :
    Reaches Session.next (fun s c => s.Allowed c ∧ s.EndFits c) Session.start (mapped len) := by
  have hnext : Session.start.next (mapCall len) = some (mapped len) := by
    simp [Session.next, Session.start, Session.added, Session.removed, Session.mmOf,
      Session.curOf, mapCall, h, mapped]
  have hallowed : Session.start.Allowed (mapCall len) := ⟨Nat.zero_le _, by decide⟩
  exact .step .start ⟨hallowed, trivial⟩ hnext

def punched : Session :=
  { mm := { arenas := [{ base := 0x100000, used := 100, freeList := [(3, 10)] }],
            highWater := 0x140000 }
    curMemSize := 0x140000
    live := (Set.Ico 0x100000 0x100064) \ (Set.Ico 0x100003 0x10000d) }

theorem punched_reached :
    Reaches Session.next (fun s c => s.Allowed c ∧ s.EndFits c) Session.start punched := by
  have hfree : (mapped 100).mm.munmap 0x100003 10 = (0, punched.mm) := by decide
  have hnext : (mapped 100).next (.munmap 0x100003 10) = some punched := by
    simp only [Session.next, Session.added, Session.removed, Session.mmOf, Session.curOf, hfree, if_true,
      Set.union_empty]
    rfl
  have hallowed : (mapped 100).Allowed (.munmap 0x100003 10) :=
    ⟨by decide, Set.Ico_subset_Ico (by decide) (by decide),
      _, List.mem_singleton.mpr rfl, by decide, by decide⟩
  exact .step (mapped_reached (by decide)) ⟨hallowed, trivial⟩ hnext

/-- The next `mmap` of eight bytes goes at an aligned address, and misses
what is still held. The bytes at the top cannot be grown by as many as there are. -/
theorem allocator_safe_punched :
    Disjoint (punched.added (mapCall 8)) punched.live ∧
      ¬ punched.added (.growInPlace 0x10000d 87 (2 ^ 64 - 1)) ⊆ Set.Ico FIRST_ARENA_BASE 0x140000 ∧
      (8 ∣ 0x100068 ∧ FIRST_ARENA_BASE ≤ 0x100068) ∧
      Disjoint punched.live (Set.Ico 0x100003 0x10000d) := by
  obtain ⟨hadd, hleaves, haddr, -, hholes⟩ := allocator_safe punched_reached
  have hcall : punched.Allowed (mapCall 8) := ⟨Nat.le_refl _, by decide⟩
  have htop : Set.Ico 0x10000d (0x10000d + 87) ⊆ punched.live := by
    rintro x ⟨hlow, hhigh⟩
    exact ⟨⟨by omega, hhigh⟩, fun hx => absurd hx.2 (by omega)⟩
  have hgrow : punched.Allowed (.growInPlace 0x10000d 87 (2 ^ 64 - 1)) :=
    ⟨⟨by decide, htop, _, List.mem_singleton.mpr rfl, by decide, by decide⟩, by decide⟩
  have hwraps : ¬ punched.EndFits (.growInPlace 0x10000d 87 (2 ^ 64 - 1)) := by
    intro hfits
    have := hfits _ (List.mem_singleton.mpr rfl) (by decide) (by decide)
    revert this
    decide
  refine ⟨hadd _ hcall trivial, hleaves _ hgrow hwraps, haddr _ _ _ _ _ _ _ hcall (by decide), ?_⟩
  exact (hholes _ (List.mem_singleton.mpr rfl)).1 (3, 10) (List.mem_singleton.mpr rfl)

def grown : Session :=
  { mm := { arenas := [{ base := 0x100000, used := 63, freeList := [] }], highWater := 0x140000 }
    curMemSize := 0x140000
    live := Set.Ico 0x100000 0x100080 ∪ Set.Ico 0x100080 (0x10003f + 2 ^ 64) }

theorem grown_reached : Reaches Session.next Session.Allowed Session.start grown := by
  have hgrow : (mapped 128).mm.growInPlace 0x100040 64 (2 ^ 64 - 1) = (.ok 0x100040, grown.mm) := by decide
  have hnext : (mapped 128).next (.growInPlace 0x100040 64 (2 ^ 64 - 1)) = some grown := by
    simp only [Session.next, Session.added, Session.removed, Session.mmOf, Session.curOf, hgrow, Set.sdiff_empty]
    rfl
  have hallowed : (mapped 128).Allowed (.growInPlace 0x100040 64 (2 ^ 64 - 1)) :=
    ⟨⟨by decide, Set.Ico_subset_Ico (by decide) (by decide),
      _, List.mem_singleton.mpr rfl, by decide, by decide⟩, by decide⟩
  exact .step ((mapped_reached (by decide)).mono fun _ _ h => h.1) hallowed hnext

/-- The sum with the bump pointer has wrapped: what is held leaves memory, and the next `mmap`
returns a byte that is held. -/
theorem grow_hands_out_twice : ∃ s, Reaches Session.next Session.Allowed Session.start s ∧
    ¬ s.live ⊆ Set.Ico FIRST_ARENA_BASE s.curMemSize ∧
      s.Allowed (mapCall 8) ∧ ¬ Disjoint (s.added (mapCall 8)) s.live := by
  have hmap : grown.mm.mmap 0x140000 8 3#32 0x22#32 (-1) 0 =
      (.ok 0x100040, { grown.mm with arenas := [{ base := 0x100000, used := 72, freeList := [] }] }) := by
    decide
  refine ⟨grown, grown_reached, fun hsub => ?_, ⟨Nat.le_refl _, by decide⟩, fun hdis => ?_⟩
  · have hfar : 2 ^ 64 ∈ grown.live := .inr ⟨by decide, by decide⟩
    have hlt := (hsub hfar).2
    revert hlt
    decide
  · have hadded : 0x100040 ∈ grown.added (mapCall 8) := by simp [Session.added, mapCall, hmap]
    exact Set.disjoint_left.mp hdis hadded (.inl ⟨by decide, by decide⟩)

end EdgeLibos.Mm
