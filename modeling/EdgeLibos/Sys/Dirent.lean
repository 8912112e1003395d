import EdgeLibos.Lib.Frames
import EdgeLibos.Lib.Utf8
import EdgeLibos.Lib.Words
import EdgeLibos.Sys.PathCalls
import Mathlib.Data.List.Lex

/-!
# Directory listings

`Vfs::readdir_all`: the entries of a directory, sorted by name and encoded one after
the other as `linux_dirent64` records. The length of a record and the offset of the
next one that it carries are computed by different formulas. A guest reads a listing
back by following the lengths.
-/

namespace EdgeLibos.Paths

open Errno Lib HostTree

inductive FileType
  | dir
  | file
  | symlink
  | charDevice
  | blockDevice
  | fifo
  | socket
  | unknown
  deriving DecidableEq, Repr

def direntType : Option FileType → UInt8
  | some .dir => 4
  | some .file => 8
  | some .symlink => 10
  | some .charDevice => 2
  | some .blockDevice => 6
  | some .fifo => 1
  | some .socket => 12
  | some .unknown | none => 0

structure Dirent64Record where
  ino : UInt64
  off : Int64
  type : UInt8
  name : List UInt8
  deriving DecidableEq, Repr

/-- `Vec::resize` with zeros. -/
def resize (l : List UInt8) (n : Nat) : List UInt8 := l.take n ++ List.replicate (n - l.length) 0

namespace Dirent64Record

def FIXED : Nat := 8 + 8 + 2 + 1

def pad (nameLen : Nat) : Nat := (8 - nameLen % 8) % 8

def reclen (r : Dirent64Record) : UInt16 :=
  let nameLen := r.name.length + 1
  UInt16.ofNat (FIXED + nameLen + pad nameLen)

def encode (r : Dirent64Record) : List UInt8 :=
  let out := le64 r.ino ++ le64 r.off.toUInt64 ++ le16 r.reclen ++ [r.type] ++ r.name ++ [0]
  resize out r.reclen.toNat

end Dirent64Record

/-- The name of a file as the host has it: some bytes, at most 255, without a NUL. -/
structure FileName where
  bytes : List UInt8
  ne : bytes ≠ []
  short : bytes.length ≤ 255
  plain : 0 ∉ bytes

/-- What the host tells of an entry; the type and the metadata may fail to be read. -/
structure HostDirEntry where
  fileName : FileName
  fileType : Option FileType
  ino : Option UInt64

/-- The tuple that `readdir_all` keeps of an entry. -/
structure Listed where
  name : List UInt8
  type : Option FileType
  ino : UInt64
  deriving DecidableEq, Repr

def HostDirEntry.listed (e : HostDirEntry) : Listed :=
  { name := fromUtf8Lossy e.fileName.bytes, type := e.fileType, ino := e.ino.getD 0 }

/-- Names are compared byte by byte. -/
def Listed.key (e : Listed) : List Nat := e.name.map UInt8.toNat

def recordAt (len : Nat) (e : Listed) : Dirent64Record where
  ino := e.ino
  off := Int64.ofNat len + Int64.ofNat e.name.length + 24
  type := direntType e.type
  name := e.name

def pushRecord (out : List UInt8) (e : Listed) : List UInt8 := out ++ (recordAt out.length e).encode

/-- What iterating over a directory gives: an entry, or an error in its place. -/
abbrev DirResults := List (Except ErrorKind HostDirEntry)

def DirResults.entries (results : DirResults) : List HostDirEntry := results.filterMap Except.toOption

def sortedEntries (entries : List HostDirEntry) : List Listed :=
  sortByKey Listed.key (entries.map HostDirEntry.listed)

def readdirAll : Except ErrorKind DirResults → Except Int (List UInt8)
  | .error e => .error (vfsIoToErrno e)
  | .ok results => .ok ((sortedEntries results.entries).foldl pushRecord [])

-- ---------------------------------------------------------------------------
-- Reading a listing back
-- ---------------------------------------------------------------------------

/-- `d_reclen` of the record at the front. -/
def reclenOf (bytes : List UInt8) : Option Nat :=
  if 18 ≤ bytes.length then some (leValue ((bytes.drop 16).take 2)) else none

def Dirent64Record.decode (bytes : List UInt8) : Option Dirent64Record :=
  let name := (bytes.drop FIXED).takeWhile (· ≠ 0)
  if FIXED + name.length < bytes.length then
    some { ino := ofLe64 (bytes.take 8)
           off := (ofLe64 ((bytes.drop 8).take 8)).toInt64
           type := bytes.getD 18 0
           name }
  else none

/-- The records a guest visits when it adds up the lengths, each with the offset at which
the next one starts. -/
def walkDirents (bytes : List UInt8) : Option (List (Dirent64Record × Nat)) := do
  let fs ← frames reclenOf bytes
  let records ← fs.mapM Dirent64Record.decode
  return records.zip (frameEnds 0 fs)

-- ---------------------------------------------------------------------------
-- One record
-- ---------------------------------------------------------------------------

variable {r : Dirent64Record} {es : List Listed}

theorem reclen_toNat (h : r.name.length ≤ 765) :
    r.reclen.toNat = 20 + r.name.length + Dirent64Record.pad (r.name.length + 1) := by
  have hpad : Dirent64Record.pad (r.name.length + 1) < 8 := Nat.mod_lt _ (by decide)
  simp only [Dirent64Record.reclen, Dirent64Record.FIXED, UInt16.toNat_ofNat']
  omega

theorem encode_eq (h : r.name.length ≤ 765) :
    r.encode = le64 r.ino ++ (le64 r.off.toUInt64 ++ (le16 r.reclen ++ (r.type :: (r.name ++
      0 :: List.replicate (Dirent64Record.pad (r.name.length + 1)) 0)))) := by
  have hlen := reclen_toNat h
  have hout : (le64 r.ino ++ le64 r.off.toUInt64 ++ le16 r.reclen ++ [r.type] ++ r.name ++ [0]).length =
      20 + r.name.length := by
    simp only [List.length_append, le64_length, le16_length, List.length_singleton]
    omega
  simp only [Dirent64Record.encode, resize]
  rw [List.take_of_length_le (by omega), hout, hlen, Nat.add_sub_cancel_left]
  simp only [List.append_assoc, List.cons_append, List.nil_append]

theorem encode_length (h : r.name.length ≤ 765) : r.encode.length = r.reclen.toNat := by
  rw [encode_eq h, reclen_toNat h]
  simp only [List.length_append, le64_length, le16_length, List.length_cons, List.length_replicate]
  omega

theorem encode_delimits (h : r.name.length ≤ 765) : Delimits reclenOf r.encode := by
  have hlen : 18 ≤ r.encode.length := by
    rw [encode_length h, reclen_toNat h]
    omega
  refine ⟨List.length_pos_iff.mp (by omega), fun rest => ?_⟩
  have hlong : 18 ≤ (r.encode ++ rest).length := by
    rw [List.length_append]
    omega
  have hword : ((r.encode ++ rest).drop 16).take 2 = le16 r.reclen := by
    rw [encode_eq h, ← List.append_assoc (le64 r.ino), List.append_assoc,
      List.drop_left' (by simp only [List.length_append, le64_length]), List.append_assoc,
      List.take_left' (le16_length _)]
  rw [reclenOf, if_pos hlong, hword, leValue_le16, encode_length h]

theorem decode_encode (h : r.name.length ≤ 765) (hplain : 0 ∉ r.name) :
    Dirent64Record.decode r.encode = some r := by
  have hino : r.encode.take 8 = le64 r.ino := by
    rw [encode_eq h, List.take_left' (le64_length _)]
  have hoff : (r.encode.drop 8).take 8 = le64 r.off.toUInt64 := by
    rw [encode_eq h, List.drop_left' (le64_length _), List.take_left' (le64_length _)]
  have htail : r.encode.drop 18 = r.type :: (r.name ++
      0 :: List.replicate (Dirent64Record.pad (r.name.length + 1)) 0) := by
    rw [encode_eq h, ← List.append_assoc (le64 r.ino), ← List.append_assoc (le64 r.ino ++ _),
      List.drop_left' (by simp only [List.length_append, le64_length, le16_length])]
  have htype : r.encode.getD 18 0 = r.type := by
    rw [List.getD_eq_getElem?_getD, ← List.head?_drop, htail, List.head?_cons, Option.getD_some]
  have hname : r.encode.drop Dirent64Record.FIXED =
      r.name ++ 0 :: List.replicate (Dirent64Record.pad (r.name.length + 1)) 0 := by
    rw [Dirent64Record.FIXED, ← List.drop_drop (i := 1) (j := 18), htail, List.drop_one, List.tail_cons]
  have hlen : Dirent64Record.FIXED + r.name.length < r.encode.length := by
    rw [encode_length h, reclen_toNat h, Dirent64Record.FIXED]
    omega
  simp only [Dirent64Record.decode]
  rw [hname, takeWhile_nul hplain, if_pos hlen, hino, hoff, htype, ofLe64_le64, ofLe64_le64]
  rfl

-- ---------------------------------------------------------------------------
-- All records
-- ---------------------------------------------------------------------------

def recordsFrom (start : Nat) : List Listed → List Dirent64Record
  | [] => []
  | e :: es => recordAt start e :: recordsFrom (start + (recordAt start e).encode.length) es

theorem foldl_pushRecord (out : List UInt8) (es : List Listed) :
    es.foldl pushRecord out = out ++ ((recordsFrom out.length es).map Dirent64Record.encode).flatten := by
  induction es generalizing out with
  | nil => rw [List.foldl_nil, recordsFrom, List.map_nil, List.flatten_nil, List.append_nil]
  | cons e es ih =>
    rw [List.foldl_cons, ih, pushRecord, List.length_append, recordsFrom, List.map_cons,
      List.flatten_cons, List.append_assoc]

theorem mem_recordsFrom (h : r ∈ recordsFrom start es) : ∃ e ∈ es, ∃ len, r = recordAt len e := by
  induction es generalizing start with
  | nil => cases h
  | cons e es ih =>
    rcases List.mem_cons.mp h with rfl | h
    · exact ⟨e, List.mem_cons_self, start, rfl⟩
    · obtain ⟨e', he', hr⟩ := ih h
      exact ⟨e', List.mem_cons_of_mem e he', hr⟩

theorem mapM_decode_encode {rs : List Dirent64Record} (h : ∀ r ∈ rs, r.name.length ≤ 765 ∧ 0 ∉ r.name) :
    (rs.map Dirent64Record.encode).mapM Dirent64Record.decode = some rs := by
  induction rs with
  | nil => rfl
  | cons r rs ih =>
    obtain ⟨hlen, hplain⟩ := h r List.mem_cons_self
    rw [List.map_cons, List.mapM_cons, decode_encode hlen hplain,
      ih fun r hr => h r (List.mem_cons_of_mem _ hr)]
    rfl

def Fits (e : Listed) : Prop := e.name.length ≤ 765 ∧ 0 ∉ e.name

def visitedFrom (start : Nat) (es : List Listed) : List (Dirent64Record × Nat) :=
  (recordsFrom start es).zip (frameEnds start ((recordsFrom start es).map Dirent64Record.encode))

theorem walkDirents_listing (h : ∀ e ∈ es, Fits e) :
    walkDirents (es.foldl pushRecord []) = some (visitedFrom 0 es) := by
  have hfits : ∀ r ∈ recordsFrom 0 es, r.name.length ≤ 765 ∧ 0 ∉ r.name := by
    intro r hr
    obtain ⟨e, he, len, rfl⟩ := mem_recordsFrom hr
    exact h e he
  have hframes : ∀ f ∈ (recordsFrom 0 es).map Dirent64Record.encode, Delimits reclenOf f := by
    intro f hf
    obtain ⟨r, hr, rfl⟩ := List.mem_map.mp hf
    exact encode_delimits (hfits r hr).1
  rw [foldl_pushRecord, List.nil_append, List.length_nil, walkDirents, frames_flatten hframes]
  simp only [Option.bind_eq_bind, Option.bind_some]
  rw [mapM_decode_encode hfits]
  rfl

theorem ofNat_inj_small (ha : a < 2 ^ 63) (hb : b < 2 ^ 63) : Int64.ofNat a = Int64.ofNat b ↔ a = b := by
  rw [← Int64.toInt_inj, Int64.toInt_ofNat_of_lt ha, Int64.toInt_ofNat_of_lt hb, Int.natCast_inj]

theorem off_recordAt_iff (len : Nat) (h : e.name.length ≤ 765) :
    (recordAt len e).off = Int64.ofNat (len + (recordAt len e).encode.length) ↔ e.name.length % 8 = 3 := by
  have hlen : (recordAt len e).encode.length =
      20 + e.name.length + Dirent64Record.pad (e.name.length + 1) := by
    rw [encode_length h, reclen_toNat h]
    rfl
  have hoff : (recordAt len e).off = Int64.ofNat len + Int64.ofNat (e.name.length + 24) := by
    rw [Int64.ofNat_add, ← Int64.add_assoc]
    rfl
  have hpad : Dirent64Record.pad (e.name.length + 1) < 8 := Nat.mod_lt _ (by decide)
  rw [hlen, hoff, Int64.ofNat_add len, Int64.add_right_inj, ofNat_inj_small (by omega) (by omega)]
  unfold Dirent64Record.pad
  omega

theorem offs_iff (start : Nat) (h : ∀ e ∈ es, Fits e) :
    (∀ v ∈ visitedFrom start es, v.1.off = Int64.ofNat v.2) ↔ ∀ e ∈ es, e.name.length % 8 = 3 := by
  induction es generalizing start with
  | nil => exact iff_of_true (fun v hv => nomatch hv) fun e he => nomatch he
  | cons e es ih =>
    have hrest := ih (start + (recordAt start e).encode.length) fun e he => h e (List.mem_cons_of_mem _ he)
    simp only [visitedFrom, recordsFrom, List.map_cons, frameEnds, List.zip_cons_cons,
      List.forall_mem_cons]
    exact and_congr (off_recordAt_iff start (h e List.mem_cons_self).1) hrest

theorem length_frameEnds (start : Nat) (fs : List (List UInt8)) : (frameEnds start fs).length = fs.length := by
  induction fs generalizing start with
  | nil => rfl
  | cons f fs ih => rw [frameEnds, List.length_cons, List.length_cons, ih]

def Dirent64Record.file (r : Dirent64Record) : List UInt8 × UInt64 × UInt8 := (r.name, r.ino, r.type)

def HostDirEntry.file (e : HostDirEntry) : List UInt8 × UInt64 × UInt8 :=
  (e.fileName.bytes, e.ino.getD 0, direntType e.fileType)

theorem map_file_recordsFrom (start : Nat) (es : List Listed) :
    (recordsFrom start es).map Dirent64Record.file = es.map fun e => (e.name, e.ino, direntType e.type) := by
  induction es generalizing start with
  | nil => rfl
  | cons e es ih =>
    rw [recordsFrom, List.map_cons, List.map_cons, ih]
    rfl

theorem map_file_visitedFrom (start : Nat) (es : List Listed) :
    (visitedFrom start es).map (fun v => v.1.file) = es.map fun e => (e.name, e.ino, direntType e.type) := by
  have hcomp : (fun v : Dirent64Record × Nat => v.1.file) = Dirent64Record.file ∘ Prod.fst := rfl
  rw [hcomp, ← List.map_map, visitedFrom, List.map_fst_zip, map_file_recordsFrom]
  rw [length_frameEnds, List.length_map]

/-- Walking a listing of these entries visits one record for each of them, in the order
of the names, and each record says where the next one starts. -/
def DecodesBack (entries : List HostDirEntry) (bytes : List UInt8) : Prop :=
  ∃ visited, walkDirents bytes = some visited ∧
    (visited.map fun v => v.1.file).Perm (entries.map HostDirEntry.file) ∧
    visited.Pairwise (fun v v' => v.1.name.map UInt8.toNat < v'.1.name.map UInt8.toNat) ∧
    ∀ v ∈ visited, v.1.off = Int64.ofNat v.2

structure TextNames (entries : List HostDirEntry) : Prop where
  distinct : (entries.map fun e => e.fileName.bytes).Nodup
  text : ∀ e ∈ entries, Utf8 e.fileName.bytes

section
variable {entries : List HostDirEntry}

theorem TextNames.name_listed (h : TextNames entries) (he : e ∈ entries) :
    e.listed.name = e.fileName.bytes := fromUtf8Lossy_of_utf8 (h.text e he)

theorem mem_sortedEntries (h : x ∈ sortedEntries entries) : ∃ e ∈ entries, e.listed = x :=
  List.mem_map.mp (mem_sortByKey.mp h)

theorem sortedEntries_fit (entries : List HostDirEntry) : ∀ x ∈ sortedEntries entries, Fits x := by
  intro x hx
  obtain ⟨e, he, rfl⟩ := mem_sortedEntries hx
  have hlen := fromUtf8Lossy_length_le e.fileName.bytes
  have hshort := e.fileName.short
  have hname : e.listed.name.length ≤ 765 := by
    simp only [HostDirEntry.listed]
    omega
  exact ⟨hname, nul_not_mem_fromUtf8Lossy e.fileName.plain⟩

theorem TextNames.files_perm (h : TextNames entries) :
    ((sortedEntries entries).map fun x => (x.name, x.ino, direntType x.type)).Perm
      (entries.map HostDirEntry.file) := by
  have hperm : (sortedEntries entries).Perm (entries.map HostDirEntry.listed) := sortByKey_perm _
  refine (hperm.map _).trans (List.Perm.of_eq ?_)
  rw [List.map_map]
  refine List.map_congr_left fun e he => ?_
  simp only [Function.comp_apply, HostDirEntry.file, h.name_listed he]
  rfl

theorem TextNames.sorted (h : TextNames entries) :
    (sortedEntries entries).Pairwise fun x y => x.key < y.key := by
  have hkeys : (entries.map HostDirEntry.listed).map Listed.key =
      (entries.map fun e => e.fileName.bytes).map (List.map UInt8.toNat) := by
    rw [List.map_map, List.map_map]
    refine List.map_congr_left fun e he => ?_
    rw [Function.comp_apply, Function.comp_apply, Listed.key, h.name_listed he]
  have hinj : Function.Injective (List.map UInt8.toNat) :=
    List.map_injective_iff.mpr fun _ _ => UInt8.toNat_inj.mp
  refine sortByKey_pairwise_lt ?_
  rw [hkeys]
  exact h.distinct.map hinj

theorem TextNames.lengths_iff (h : TextNames entries) :
    (∀ x ∈ sortedEntries entries, x.name.length % 8 = 3) ↔
      ∀ e ∈ entries, e.fileName.bytes.length % 8 = 3 := by
  constructor
  · intro hall e he
    rw [← h.name_listed he]
    exact hall e.listed (mem_sortByKey.mpr (List.mem_map_of_mem he))
  · intro hall x hx
    obtain ⟨e, he, rfl⟩ := mem_sortedEntries hx
    rw [h.name_listed he]
    exact hall e he

theorem TextNames.decodesBack_iff (h : TextNames entries) :
    DecodesBack entries ((sortedEntries entries).foldl pushRecord []) ↔
      ∀ e ∈ entries, e.fileName.bytes.length % 8 = 3 := by
  have hwalk := walkDirents_listing (sortedEntries_fit entries)
  rw [← h.lengths_iff, ← offs_iff 0 (sortedEntries_fit entries)]
  constructor
  · rintro ⟨visited, hvisited, -, -, hoff⟩
    cases hwalk.symm.trans hvisited
    exact hoff
  · intro hoff
    refine ⟨_, hwalk, ?_, ?_, hoff⟩
    · rw [map_file_visitedFrom]
      exact h.files_perm
    · have hnames : ((visitedFrom 0 (sortedEntries entries)).map fun v => v.1.file).Pairwise
          fun f f' => f.1.map UInt8.toNat < f'.1.map UInt8.toNat := by
        rw [map_file_visitedFrom]
        exact List.pairwise_map.mpr h.sorted
      have hvisited := List.pairwise_map.mp hnames
      exact hvisited

end

/-- A listing decodes back to its directory, next offsets included, exactly when the
length of every name is 3 modulo 8. -/
theorem dirents_decode_iff (results : DirResults) (h : TextNames results.entries) :
    ∃ bytes, readdirAll (.ok results) = .ok bytes ∧
      (DecodesBack results.entries bytes ↔
        ∀ e ∈ results.entries, e.fileName.bytes.length % 8 = 3) :=
  ⟨_, rfl, h.decodesBack_iff⟩

theorem nameA_ne : ([97] : List UInt8) ≠ [] := by decide

theorem nameA_short : ([97] : List UInt8).length ≤ 255 := by decide

theorem nameA_plain : 0 ∉ ([97] : List UInt8) := by decide

def fileA : HostDirEntry where
  fileName := ⟨[97], nameA_ne, nameA_short, nameA_plain⟩
  fileType := some .file
  ino := some 7

theorem nameBbb_ne : ([98, 98, 98] : List UInt8) ≠ [] := by decide

theorem nameBbb_short : ([98, 98, 98] : List UInt8).length ≤ 255 := by decide

theorem nameBbb_plain : 0 ∉ ([98, 98, 98] : List UInt8) := by decide

def fileBbb : HostDirEntry where
  fileName := ⟨[98, 98, 98], nameBbb_ne, nameBbb_short, nameBbb_plain⟩
  fileType := some .dir
  ino := none

theorem textNames_fileA : TextNames [fileA] := by
  refine ⟨List.nodup_singleton _, fun e he => ?_⟩
  obtain rfl := List.mem_singleton.mp he
  exact ⟨['a'], by decide⟩

theorem nameAaa_ne : ([97, 97, 97] : List UInt8) ≠ [] := by decide

theorem nameAaa_short : ([97, 97, 97] : List UInt8).length ≤ 255 := by decide

theorem nameAaa_plain : 0 ∉ ([97, 97, 97] : List UInt8) := by decide

def fileAaa : HostDirEntry where
  fileName := ⟨[97, 97, 97], nameAaa_ne, nameAaa_short, nameAaa_plain⟩
  fileType := some .file
  ino := some 9

theorem textNames_two : TextNames [fileBbb, fileAaa] := by
  refine ⟨by decide, fun e he => ?_⟩
  rcases List.mem_pair.mp he with rfl | rfl
  · exact ⟨['b', 'b', 'b'], by decide⟩
  · exact ⟨['a', 'a', 'a'], by decide⟩

/-- Two names of three bytes, which the host lists out of order, decode back. -/
theorem dirents_decode_two :
    ∃ bytes, readdirAll (.ok [.ok fileBbb, .ok fileAaa]) = .ok bytes ∧ DecodesBack [fileBbb, fileAaa] bytes := by
  obtain ⟨bytes, hread, hiff⟩ := dirents_decode_iff [.ok fileBbb, .ok fileAaa] textNames_two
  refine ⟨bytes, hread, hiff.mpr fun e he => ?_⟩
  rcases List.mem_pair.mp he with rfl | rfl <;> rfl

/-- The record of a name of one byte is 27 bytes long, and its `off` says 25. -/
theorem dirents_off_short :
    ∃ bytes, readdirAll (.ok [.ok fileA]) = .ok bytes ∧ TextNames [fileA] ∧ ¬ DecodesBack [fileA] bytes := by
  refine ⟨_, rfl, textNames_fileA, fun h => ?_⟩
  have hlen : 1 % 8 = 3 := textNames_fileA.decodesBack_iff.mp h fileA List.mem_cons_self
  exact absurd hlen (by decide)

end EdgeLibos.Paths
