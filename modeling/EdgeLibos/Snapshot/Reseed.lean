import EdgeLibos.Snapshot.Fixpoint
import EdgeLibos.Sys.Random

/-!
# The random stream starts over

A snapshot keeps the seed of the generator, not its state, and a restore seeds
a new one with it. So a restored kernel answers like one that has just booted:
it gives out again what was given out before the freeze.
-/

namespace EdgeLibos.Snapshot

open Lib Sys

def freezeAndApply (host : Host) (k : Kernel) (pages : List MemoryPageSnapshot) (target : Kernel) :
    Except SnapshotError Kernel :=
  applySnapshotKernelState host (buildKernelSnapshot k pages) { target with memory := k.memory }

theorem freezeAndApply_ok (h : freezeAndApply host k pages target = .ok k') :
    k'.rng = .fromSeed k.rngSeed ∧ k'.memory = k.memory := by
  obtain ⟨-, fds, cells, -, rfl⟩ := applySnapshotKernelState_eq_ok.mp h
  exact ⟨rfl, rfl⟩

theorem freezeAndApply_framed (hf : Framed k k') (h : freezeAndApply host k pages target = .ok k₀) :
    ∃ k₀', freezeAndApply host k' pages target = .ok k₀' := by
  obtain ⟨memory, rng, rfl⟩ := hf
  obtain ⟨hv, fds, cells, hfds, -⟩ := applySnapshotKernelState_eq_ok.mp h
  exact ⟨_, applySnapshotKernelState_eq_ok.mpr ⟨hv, fds, cells, hfds, rfl⟩⟩

theorem rngSeed_framed (hf : Framed k k') : k'.rngSeed = k.rngSeed := by
  obtain ⟨memory, rng, rfl⟩ := hf
  rfl

def onceGenerator : Generator where
  State := Bool
  fromSeed _ := false
  fillBytes s len := (List.replicate len (if s then 1 else 0), true)
  length_fillBytes _ _ := List.length_replicate

theorem onceGenerator_fresh (seed : RngSeed) :
    (onceGenerator.fillBytes (onceGenerator.state (.fromSeed seed)) 1).1 = [0] := rfl

theorem onceGenerator_drawn {rng : SmallRng} (h : rng.draws ≠ []) :
    (onceGenerator.fillBytes (onceGenerator.state rng) 1).1 = [1] := by
  obtain ⟨draws, len, hdraws⟩ := (List.eq_nil_or_concat rng.draws).resolve_left h
  rw [Generator.state, hdraws, List.concat_eq_append, List.foldl_append]
  rfl

theorem answers_single {g : Generator} {k : Kernel} {a : GetrandomArgs} (hdraws : a.Draws)
    (hroom : bufferRoom k.memory a.buf a.buflen.toNat = .ok u) :
    answers g k [a] = [(a.buflen, (g.fillBytes (g.state k.rng) a.buflen.toNat).1)] := by
  rw [answers_cons, answerOf, if_pos hdraws, hroom]
  rfl

def oneByte : GetrandomArgs := { buf := 0, buflen := 1, flags := 0 }

theorem answers_oneByte (g : Generator) {k : Kernel} (hb : HasBuffer k.memory) :
    answers g k [oneByte] = [(1, (g.fillBytes (g.state k.rng) 1).1)] := by
  obtain ⟨mem, hmem, hsize⟩ := hb
  have hsize : 1 ≤ mem.size := hsize
  have hroom : bufferRoom k.memory 0 1 = .ok () := by simp [bufferRoom, hmem, ownedOf, hsize]
  exact answers_single (a := oneByte) (by decide) hroom

section
variable {host : Host} {k target : Kernel} {pages : List MemoryPageSnapshot}
  {before : List GetrandomArgs} {g : Generator}

/-- The restored kernel answers as the frozen one would after seeding its generator anew. -/
theorem answers_reseeded (h : freezeAndApply host (afterCalls g k before) pages target = .ok k')
    (later : List GetrandomArgs) :
    answers g k' later =
      answers g { afterCalls g k before with rng := .fromSeed k.rngSeed } later := by
  obtain ⟨hrng, hmem⟩ := freezeAndApply_ok h
  refine answers_congr ?_ ?_ later
  · rw [hrng, rngSeed_framed (after_calls g k before).frame]
  · rw [hmem]

/-- The calls made before the freeze get the same bytes again. -/
theorem answers_again (hboot : k.rng = .fromSeed k.rngSeed)
    (h : freezeAndApply host (afterCalls g k before) pages target = .ok k') :
    answers g k' before = answers g k before := by
  obtain ⟨hrng, hmem⟩ := freezeAndApply_ok h
  refine answers_congr ?_ ?_ before
  · rw [hrng, rngSeed_framed (after_calls g k before).frame, hboot]
  · rw [hmem, (after_calls g k before).room]

theorem answers_continue (hboot : k.rng = .fromSeed k.rngSeed)
    (hnone : (∀ a ∈ before, ¬ a.Draws) ∨ ¬ HasBuffer k.memory)
    (h : freezeAndApply host (afterCalls g k before) pages target = .ok k')
    (later : List GetrandomArgs) :
    answers g k' later = answers g (afterCalls g k before) later := by
  obtain ⟨hrng, hmem⟩ := freezeAndApply_ok h
  have hafter := after_calls g k before
  rcases hnone with hnone | hb
  · have hfilter : before.filter (·.Draws) = [] := by simpa using hnone
    refine answers_congr ?_ (by rw [hmem]) later
    rw [hrng, hafter.rng, rngSeed_framed hafter.frame, hfilter, hboot]
    rfl
  · refine answers_no_buffer ?_ (by rw [hmem]) later
    rw [hmem]
    exact fun hb' => hb (hasBuffer_of_room hafter.room hb')

/-- After a draw, a generator that remembers being drawn from tells the two apart. -/
theorem answers_differ (hb : HasBuffer k.memory) (ha : a ∈ before) (hdraws : a.Draws)
    (h : freezeAndApply host (afterCalls onceGenerator k before) pages target = .ok k') :
    answers onceGenerator k' [oneByte] ≠
      answers onceGenerator (afterCalls onceGenerator k before) [oneByte] := by
  obtain ⟨hrng, hmem⟩ := freezeAndApply_ok h
  have hafter := after_calls onceGenerator k before
  have hb' : HasBuffer (afterCalls onceGenerator k before).memory :=
    hasBuffer_of_room hafter.room.symm hb
  have hdrawn : (afterCalls onceGenerator k before).rng.draws ≠ [] := by
    have hmem : a ∈ before.filter (·.Draws) := List.mem_filter.mpr ⟨ha, by simpa using hdraws⟩
    rw [hafter.rng]
    simp only [ne_eq, List.append_eq_nil_iff, List.map_eq_nil_iff, not_and]
    intro _ hnil
    rw [hnil] at hmem
    cases hmem
  rw [answers_oneByte _ hb', answers_oneByte _ (by rwa [hmem]), onceGenerator_drawn hdrawn, hrng,
    onceGenerator_fresh]
  decide

end

theorem restore_reseeds_stream (host : Host) (k target : Kernel) (pages : List MemoryPageSnapshot)
    (before : List GetrandomArgs) (hboot : k.rng = .fromSeed k.rngSeed)
    (hok : ∃ k₀, freezeAndApply host k pages target = .ok k₀) :
    (∀ g k', freezeAndApply host (afterCalls g k before) pages target = .ok k' →
      (∀ later, answers g k' later =
        answers g { afterCalls g k before with rng := .fromSeed k.rngSeed } later) ∧
      answers g k' before = answers g k before) ∧
    ((∀ g k', freezeAndApply host (afterCalls g k before) pages target = .ok k' →
        ∀ later, answers g k' later = answers g (afterCalls g k before) later) ↔
      (∀ a ∈ before, ¬ a.Draws) ∨ ¬ HasBuffer k.memory) := by
  refine ⟨fun g k' h => ⟨answers_reseeded h, answers_again hboot h⟩, fun hsame => ?_, ?_⟩
  · by_contra hcond
    obtain ⟨hdraws, hb⟩ := not_or.mp hcond
    push Not at hdraws hb
    obtain ⟨a, ha, hdraws⟩ := hdraws
    obtain ⟨k₀, hk₀⟩ := hok
    obtain ⟨k', hk'⟩ := freezeAndApply_framed (after_calls onceGenerator k before).frame hk₀
    exact answers_differ hb ha hdraws hk' (hsame onceGenerator k' hk' [oneByte])
  · intro hnone g k' h later
    exact answers_continue hboot hnone h later

def bootedKernel : Kernel :=
  (Kernel.new ["app"] [] { root := "/", cwd := "/" } (Vector.replicate 32 7)).attachMemory .zeroPage

theorem bootedKernel_applies :
    ∃ k₀, freezeAndApply refusingHost bootedKernel [] otherKernel = .ok k₀ := by
  obtain ⟨fds, cells, -, h⟩ := applySnapshotKernelState_inKernel refusingHost bootedKernel
    { otherKernel with memory := bootedKernel.memory } [] (by decide)
  exact ⟨_, h⟩

theorem restore_reseeds_stream_booted :
    (∀ g k', freezeAndApply refusingHost (afterCalls g bootedKernel [oneByte]) [] otherKernel = .ok k' →
      (∀ later, answers g k' later =
        answers g { afterCalls g bootedKernel [oneByte] with
          rng := .fromSeed bootedKernel.rngSeed } later) ∧
      answers g k' [oneByte] = answers g bootedKernel [oneByte]) ∧
    ((∀ g k', freezeAndApply refusingHost (afterCalls g bootedKernel [oneByte]) [] otherKernel = .ok k' →
        ∀ later, answers g k' later = answers g (afterCalls g bootedKernel [oneByte]) later) ↔
      (∀ a ∈ [oneByte], ¬ a.Draws) ∨ ¬ HasBuffer bootedKernel.memory) :=
  restore_reseeds_stream refusingHost bootedKernel otherKernel [] [oneByte] rfl bootedKernel_applies

def countingGenerator : Generator where
  State := Nat
  fromSeed seed := (seed.get 0).toNat
  fillBytes s len := ((List.range len).map fun i => UInt8.ofNat (s + i), s + len)
  length_fillBytes _ _ := by simp

def fourBytes : GetrandomArgs := { buf := 0, buflen := 4, flags := 0 }

theorem answers_fourBytes (n : Nat) {k : Kernel} (hroom : bufferRoom k.memory = bufferRoom bootedKernel.memory)
    (hs : @Eq Nat (countingGenerator.state k.rng) n) :
    answers countingGenerator k [fourBytes] =
      [(4, (List.range 4).map fun i => UInt8.ofNat (n + i))] := by
  have hfits : bufferRoom k.memory 0 4 = .ok () := by
    rw [hroom]
    simp [bufferRoom, bootedKernel, Kernel.attachMemory, ownedOf, LinearMemory.zeroPage_size]
  rw [answers_single (a := fourBytes) (by decide) hfits, hs]
  rfl

/-- Four bytes are drawn, the kernel is frozen and restored, and the next four
bytes are the same four; the frozen kernel would have gone on. -/
theorem random_bytes_replayed :
    answers countingGenerator bootedKernel [fourBytes] = [(4, [7, 8, 9, 10])] ∧
    ∃ k', freezeAndApply refusingHost (afterCalls countingGenerator bootedKernel [fourBytes]) []
        otherKernel = .ok k' ∧
      answers countingGenerator k' [fourBytes] = [(4, [7, 8, 9, 10])] ∧
      answers countingGenerator (afterCalls countingGenerator bootedKernel [fourBytes]) [fourBytes] =
        [(4, [11, 12, 13, 14])] := by
  have hafter := after_calls countingGenerator bootedKernel [fourBytes]
  obtain ⟨k₀, hk₀⟩ := bootedKernel_applies
  obtain ⟨k', hk'⟩ := freezeAndApply_framed hafter.frame hk₀
  obtain ⟨hrng, hmem⟩ := freezeAndApply_ok hk'
  refine ⟨answers_fourBytes 7 rfl rfl, k', hk', answers_fourBytes 7 ?_ ?_,
    answers_fourBytes 11 hafter.room ?_⟩
  · rw [hmem, hafter.room]
  · rw [hrng, rngSeed_framed hafter.frame]
    rfl
  · rw [hafter.rng]
    rfl

end EdgeLibos.Snapshot
