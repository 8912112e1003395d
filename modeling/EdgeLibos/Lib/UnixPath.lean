import Mathlib.Algebra.Ring.Nat
import Mathlib.Data.List.Infix

/-!
# Paths of a Unix host

A path is its bytes. Its components are what lies between slashes: empty ones and
`.` are skipped, except for a leading `.`, and one path lies under another when its
components start with those of the other. A path put together from plain names,
without `.` and `..`, has exactly these names as its components.
-/

namespace EdgeLibos.Lib

abbrev UnixPath := List UInt8

namespace UnixPath

abbrev Name := List UInt8

def slash : UInt8 := 47
def dot : UInt8 := 46

inductive Component
  | rootDir
  | curDir
  | parentDir
  | normal (name : Name)
  deriving DecidableEq, Repr

def component? (piece : Name) : Option Component :=
  if piece = [] ∨ piece = [dot] then none
  else if piece = [dot, dot] then some .parentDir
  else some (.normal piece)

def isAbsolute (p : UnixPath) : Bool := p.head? = some slash

def leading (p : UnixPath) : List Component :=
  if isAbsolute p then [.rootDir]
  else if (p.splitOn slash).head? = some [dot] then [.curDir]
  else []

def components (p : UnixPath) : List Component :=
  leading p ++ (p.splitOn slash).filterMap component?

/-- Component-wise: `/ab` does not lie under `/a`. -/
def startsWith (p base : UnixPath) : Bool := (components base).isPrefixOf (components p)

/-- An absolute path replaces the one it is joined to. -/
def join (base p : UnixPath) : UnixPath :=
  if isAbsolute p then p
  else if base = [] ∨ base.getLast? = some slash then base ++ p
  else base ++ slash :: p

-- ---------------------------------------------------------------------------
-- Paths of plain names
-- ---------------------------------------------------------------------------

def PlainName (n : Name) : Prop := n ≠ [] ∧ n ≠ [dot] ∧ n ≠ [dot, dot] ∧ slash ∉ n

/-- A path under construction: whether the root was pushed, and the names after it. -/
structure Stack where
  absolute : Bool
  names : List Name
  deriving DecidableEq, Repr

namespace Stack

def empty : Stack := { absolute := false, names := [] }

def root : Stack := { absolute := true, names := [] }

def push (s : Stack) (n : Name) : Stack := { s with names := s.names ++ [n] }

/-- The root and the empty path have no parent. -/
def pop (s : Stack) : Option Stack :=
  if s.names = [] then none else some { s with names := s.names.dropLast }

def toPath (s : Stack) : UnixPath :=
  (if s.absolute then [slash] else []) ++ [slash].intercalate s.names

def Plain (s : Stack) : Prop := ∀ n ∈ s.names, PlainName n

end Stack

theorem component?_plain (h : PlainName n) : component? n = some (.normal n) := by
  obtain ⟨hne, hdot, hdots, -⟩ := h
  rw [component?, if_neg (by simp [hne, hdot]), if_neg hdots]

theorem plainName_of_component? (hs : slash ∉ piece) (h : component? piece = some (.normal n)) :
    PlainName n := by
  unfold component? at h
  split at h
  · cases h
  · rename_i hne
    split at h
    · cases h
    · rename_i hdots
      cases h
      rw [not_or] at hne
      exact ⟨hne.1, hne.2, hdots, hs⟩

theorem slash_not_mem_of_mem_splitOn {p : UnixPath} (h : piece ∈ p.splitOn slash) : slash ∉ piece := by
  induction p generalizing piece with
  | nil =>
    rw [List.splitOn_nil, List.mem_singleton] at h
    rw [h]
    exact List.not_mem_nil
  | cons b p ih =>
    rw [List.splitOn_cons_eq_if_modifyHead] at h
    split at h
    · rcases List.mem_cons.mp h with rfl | h
      · exact List.not_mem_nil
      · exact ih h
    · rename_i hb
      obtain ⟨first, rest, hsplit⟩ := List.exists_cons_of_ne_nil (List.splitOn_ne_nil slash p)
      rw [hsplit] at h ih
      rcases List.mem_cons.mp h with rfl | h
      · intro hm
        rcases List.mem_cons.mp hm with hm | hm
        · exact hb (beq_iff_eq.mpr hm.symm)
        · exact ih List.mem_cons_self hm
      · exact ih (List.mem_cons_of_mem _ h)

theorem plainName_of_mem_components (h : .normal n ∈ components p) : PlainName n := by
  rcases List.mem_append.mp h with h | h
  · unfold leading at h
    split at h
    · cases List.mem_singleton.mp h
    · split at h
      · cases List.mem_singleton.mp h
      · cases h
  · obtain ⟨piece, hp, hc⟩ := List.mem_filterMap.mp h
    exact plainName_of_component? (slash_not_mem_of_mem_splitOn hp) hc

theorem isAbsolute_cons : isAbsolute (slash :: p) = true := by
  rw [isAbsolute, List.head?_cons, decide_eq_true rfl]

theorem filterMap_component?_plain {names : List Name} (h : ∀ n ∈ names, PlainName n) :
    names.filterMap component? = names.map .normal := by
  induction names with
  | nil => rfl
  | cons n rest ih =>
    rw [List.filterMap_cons, component?_plain (h n List.mem_cons_self), List.map_cons,
      ih fun m hm => h m (List.mem_cons_of_mem _ hm)]

theorem splitOn_intercalate_plain {names : List Name} (h : ∀ n ∈ names, PlainName n) :
    (([slash].intercalate names).splitOn slash).filterMap component? = names.map .normal := by
  cases names with
  | nil => rfl
  | cons n rest =>
    rw [List.splitOn_intercalate slash (fun m hm => (h m hm).2.2.2) (List.cons_ne_nil _ _)]
    exact filterMap_component?_plain h

theorem Stack.components_toPath {s : Stack} (ha : s.absolute = true) (h : s.Plain) :
    components s.toPath = .rootDir :: s.names.map .normal := by
  rw [toPath, ha, if_pos rfl, List.singleton_append, components, leading, isAbsolute_cons,
    if_pos rfl, List.splitOn_cons_eq_if_modifyHead, if_pos (beq_self_eq_true slash)]
  rw [List.filterMap_cons, show component? [] = none from rfl]
  simp only [List.singleton_append]
  rw [splitOn_intercalate_plain h]

theorem isAbsolute_of_rootDir_mem (h : .rootDir ∈ components p) : isAbsolute p = true := by
  rcases List.mem_append.mp h with h | h
  · unfold leading at h
    split at h
    · assumption
    · split at h
      · cases List.mem_singleton.mp h
      · cases h
  · obtain ⟨piece, -, hc⟩ := List.mem_filterMap.mp h
    unfold component? at hc
    split at hc
    · cases hc
    · split at hc
      · cases hc
      · cases hc

theorem Stack.absolute_of_isAbsolute {s : Stack} (h : s.Plain) (ha : isAbsolute s.toPath = true) :
    s.absolute = true := by
  obtain ⟨absolute, names⟩ := s
  cases absolute with
  | true => rfl
  | false =>
    cases names with
    | nil => cases ha
    | cons n rest =>
      obtain ⟨hne, -, -, hslash⟩ := h n List.mem_cons_self
      obtain ⟨b, n, rfl⟩ := List.exists_cons_of_ne_nil hne
      have hb : b = slash := by
        cases rest with
        | nil => simpa [isAbsolute, toPath] using ha
        | cons m rest => simpa [isAbsolute, toPath, List.intercalate_cons_cons] using ha
      exact absurd (hb ▸ List.mem_cons_self) hslash

theorem Stack.mem_splitOn_toPath {s : Stack} (h : s.Plain) (hm : piece ∈ s.toPath.splitOn slash) :
    piece = [] ∨ piece ∈ s.names := by
  have hnames (hm : piece ∈ ([slash].intercalate s.names).splitOn slash) :
      piece = [] ∨ piece ∈ s.names := by
    cases hn : s.names with
    | nil =>
      rw [hn] at hm
      exact .inl (List.mem_singleton.mp hm)
    | cons n rest =>
      rw [List.splitOn_intercalate slash (fun m hm => (h m hm).2.2.2) (by simp [hn]), hn] at hm
      exact .inr hm
  unfold toPath at hm
  split at hm
  · rw [List.singleton_append, List.splitOn_cons_eq_if_modifyHead,
      if_pos (beq_self_eq_true slash)] at hm
    rcases List.mem_cons.mp hm with hm | hm
    · exact .inl hm
    · exact hnames hm
  · exact hnames hm

-- ---------------------------------------------------------------------------
-- Joining
-- ---------------------------------------------------------------------------

theorem splitOn_append_slash (base p : UnixPath) :
    (base ++ slash :: p).splitOn slash = base.splitOn slash ++ p.splitOn slash := by
  induction base with
  | nil => rw [List.nil_append, List.splitOn_cons_eq_if_modifyHead, if_pos (beq_self_eq_true slash),
      List.splitOn_nil, List.singleton_append]
  | cons b base ih =>
    rw [List.cons_append, List.splitOn_cons_eq_if_modifyHead, List.splitOn_cons_eq_if_modifyHead, ih]
    obtain ⟨first, rest, hsplit⟩ := List.exists_cons_of_ne_nil (List.splitOn_ne_nil slash base)
    split
    · rfl
    · rw [hsplit, List.cons_append, List.modifyHead_cons, List.modifyHead_cons, List.cons_append]

theorem splitOn_append_slash_components (base p : UnixPath) :
    ((base ++ slash :: p).splitOn slash).filterMap component? =
      (base.splitOn slash).filterMap component? ++ (p.splitOn slash).filterMap component? := by
  rw [splitOn_append_slash, List.filterMap_append]

theorem isAbsolute_append (h : isAbsolute base = true) (p : UnixPath) :
    isAbsolute (base ++ p) = true := by
  cases base with
  | nil => cases h
  | cons b base => exact h

theorem components_of_isAbsolute (h : isAbsolute p = true) :
    components p = .rootDir :: (p.splitOn slash).filterMap component? := by
  rw [components, leading, if_pos h, List.singleton_append]

theorem components_prefix_join (h : isAbsolute base = true) (hp : isAbsolute p = false) :
    components base <+: components (join base p) := by
  have hne : base ≠ [] := by
    rintro rfl
    cases h
  rw [join, if_neg (by simp [hp])]
  by_cases hlast : base.getLast? = some slash
  · -- A base that ends in a slash is only the root or not normalised.
    obtain ⟨base, rfl⟩ := List.getLast?_eq_some_iff.mp hlast
    rw [if_pos (.inr hlast), components_of_isAbsolute h,
      components_of_isAbsolute (isAbsolute_append h p), List.append_assoc, List.singleton_append,
      splitOn_append_slash_components, splitOn_append_slash_components]
    rw [List.splitOn_nil, show [([] : Name)].filterMap component? = [] from rfl, List.append_nil]
    exact (List.prefix_cons_inj _).mpr (List.prefix_append ..)
  · rw [if_neg (not_or.mpr ⟨hne, hlast⟩), components_of_isAbsolute h,
      components_of_isAbsolute (isAbsolute_append h _), splitOn_append_slash_components]
    exact (List.prefix_cons_inj _).mpr (List.prefix_append ..)

theorem isAbsolute_join (h : isAbsolute base = true) (p : UnixPath) : isAbsolute (join base p) = true := by
  unfold join
  split
  · assumption
  · split
    · exact isAbsolute_append h p
    · exact isAbsolute_append h _

end UnixPath

end EdgeLibos.Lib
