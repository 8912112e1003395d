import EdgeLibos.Lib.HostOps
import EdgeLibos.Lib.Runs

/-!
# Renaming in a host file system

A tree is closed when whatever is in it lies in a directory. When the host allows a
rename it moves all that is at and below the old location and replaces the entry at the
new one, of which nothing can be below; two links to one file stay as they are.
-/

namespace EdgeLibos.Lib.HostTree

open UnixPath

variable {m m' : Files} {a b l : Loc}

namespace Files

def Closed (m : Files) : Prop := ∀ l n, (m.get? (l ++ [n])).isSome → m.get? l = some .dir

theorem Closed.above (hm : m.Closed) (hl : l ≠ []) (h : (m.get? (a ++ l)).isSome) :
    m.get? a = some .dir := by
  induction l using List.reverseRecOn with
  | nil => exact absurd rfl hl
  | append_singleton l n ih =>
    rw [← List.append_assoc] at h
    have hdir := hm _ _ h
    cases l with
    | nil => rwa [List.append_nil] at hdir
    | cons x l => exact ih (List.cons_ne_nil x l) (by rw [hdir]; rfl)

theorem Closed.nothing_below (hm : m.Closed) (hl : l ≠ []) (h : m.get? a ≠ some .dir) :
    m.get? (a ++ l) = none := by
  by_contra hsome
  exact h (hm.above hl (Option.isSome_iff_ne_none.mpr hsome))

theorem closed_iff : m.Closed ↔ ∀ e ∈ m.entries, e.1 = [] ∨ m.get? e.1.dropLast = some .dir := by
  constructor
  · rintro h ⟨x, node⟩ he
    obtain rfl | ⟨x, n, rfl⟩ := List.eq_nil_or_concat' x
    · exact .inl rfl
    · right
      have hsome : (m.get? (x ++ [n])).isSome := by
        rw [HashMap.get?_eq_some_iff.mpr he]
        rfl
      rw [List.dropLast_concat]
      exact h x n hsome
  · intro h x n hsome
    obtain ⟨node, hnode⟩ := Option.isSome_iff_exists.mp hsome
    rcases h _ (HashMap.get?_eq_some_iff.mp hnode) with hnil | hdir
    · exact absurd hnil (by simp)
    · rwa [List.dropLast_concat] at hdir

instance decidableClosed (m : Files) : Decidable m.Closed := decidable_of_iff _ closed_iff.symm

theorem get?_eq_none_of_isEmptyDir (h : m.isEmptyDir b = true) (hl : l ≠ []) : m.get? (b ++ l) = none := by
  by_contra hsome
  obtain ⟨node, hnode⟩ := Option.isSome_iff_exists.mp (Option.isSome_iff_ne_none.mpr hsome)
  have hentry := List.all_eq_true.mp h _ (HashMap.get?_eq_some_iff.mp hnode)
  have hunder : Under b (b ++ l) := List.prefix_append ..
  have hne : b ++ l ≠ b := fun he => hl (List.append_right_eq_self.mp he)
  simp only [decide_eq_true hunder, decide_eq_true hne, Bool.and_true, Bool.not_true,
    Bool.false_eq_true] at hentry

-- ---------------------------------------------------------------------------
-- Moving a part of the tree
-- ---------------------------------------------------------------------------

theorem mem_below_iff : e ∈ m.below a ↔ e ∈ m.entries ∧ Under a e.1 := by
  rw [below, List.mem_filter, decide_eq_true_eq]

theorem get?_foldl_erase_mem {es : List (Loc × Node)} (h : ∃ e ∈ es, e.1 = l) :
    (es.foldl (fun m e => m.erase e.1) m).get? l = none := by
  induction es generalizing m with
  | nil =>
    obtain ⟨e, he, -⟩ := h
    cases he
  | cons e es ih =>
    rw [List.foldl_cons]
    by_cases hin : ∃ e ∈ es, e.1 = l
    · exact ih hin
    · obtain ⟨e', he', rfl⟩ := h
      have hhead : e' = e := (List.mem_cons.mp he').resolve_right fun ht => hin ⟨e', ht, rfl⟩
      rw [get?_foldl_erase fun x hx hxl => hin ⟨x, hx, hxl⟩, hhead, HashMap.get?_erase, if_pos rfl]

theorem get?_foldl_insert_mem {es : List (Loc × Node)} {key : Loc × Node → Loc}
    (hnodup : (es.map key).Nodup) (he : e ∈ es) :
    (es.foldl (fun m e => m.insert (key e) e.2) m).get? (key e) = some e.2 := by
  induction es generalizing m with
  | nil => cases he
  | cons x es ih =>
    rw [List.map_cons, List.nodup_cons] at hnodup
    rw [List.foldl_cons]
    rcases List.mem_cons.mp he with rfl | he
    · have hnot : ∀ y ∈ es, key y ≠ key e := fun y hy hk => hnodup.1 (hk ▸ List.mem_map_of_mem hy)
      rw [get?_foldl_insert key hnot, HashMap.get?_insert, if_pos rfl]
    · exact ih hnodup.2 he

def cleared (m : Files) (a b : Loc) : Files := (m.below a ++ m.below b).foldl (fun m e => m.erase e.1) m

def movedKey (a b : Loc) (e : Loc × Node) : Loc := b ++ e.1.drop a.length

theorem move_eq (m : Files) (a b : Loc) :
    m.move a b = (m.below a).foldl (fun m e => m.insert (movedKey a b e) e.2) (m.cleared a b) := rfl

theorem get?_cleared (h : Under a l ∨ Under b l) : (m.cleared a b).get? l = none := by
  cases hget : m.get? l with
  | none =>
    rw [cleared, get?_foldl_erase, hget]
    intro e he hel
    have hentry : e ∈ m.entries := by
      rcases List.mem_append.mp he with he | he
      · exact (mem_below_iff.mp he).1
      · exact (mem_below_iff.mp he).1
    cases hget.symm.trans (hel ▸ HashMap.get?_eq_some_iff.mpr hentry)
  | some node =>
    have hentry := HashMap.get?_eq_some_iff.mp hget
    refine get?_foldl_erase_mem ⟨(l, node), List.mem_append.mpr ?_, rfl⟩
    rcases h with ha | hb
    · exact .inl (mem_below_iff.mpr ⟨hentry, ha⟩)
    · exact .inr (mem_below_iff.mpr ⟨hentry, hb⟩)

theorem movedKey_append (a b l : Loc) (node : Node) : movedKey a b (a ++ l, node) = b ++ l := by
  rw [movedKey, List.drop_left]

theorem eq_of_movedKey (he : e ∈ m.below a) (hkey : movedKey a b e = b ++ l) : e.1 = a ++ l := by
  obtain ⟨rest, hrest⟩ := (mem_below_iff.mp he).2
  rw [movedKey, ← hrest, List.drop_left, List.append_cancel_left_eq] at hkey
  rw [← hrest, hkey]

theorem nodup_movedKeys (m : Files) (a b : Loc) : ((m.below a).map (movedKey a b)).Nodup := by
  have hkeys : ((m.below a).map Prod.fst).Nodup := HashMap.nodup_filter m.nodup _
  refine (List.Nodup.of_map _ hkeys).map_on fun e he e' he' hkey => ?_
  obtain ⟨rest, hrest⟩ := (mem_below_iff.mp he').2
  have hkey' : movedKey a b e = b ++ rest := by
    rw [hkey, movedKey, ← hrest, List.drop_left]
  exact List.inj_on_of_nodup_map hkeys he he' ((eq_of_movedKey he hkey').trans hrest)

theorem get?_move_new (m : Files) (a b l : Loc) : (m.move a b).get? (b ++ l) = m.get? (a ++ l) := by
  rw [move_eq]
  cases hget : m.get? (a ++ l) with
  | none =>
    rw [get?_foldl_insert, get?_cleared (.inr (List.prefix_append ..))]
    intro e he hkey
    have hentry := HashMap.get?_eq_some_iff.mpr (mem_below_iff.mp he).1
    rw [eq_of_movedKey he hkey, hget] at hentry
    cases hentry
  | some node =>
    have hmem : (a ++ l, node) ∈ m.below a :=
      mem_below_iff.mpr ⟨HashMap.get?_eq_some_iff.mp hget, List.prefix_append ..⟩
    have hnew := get?_foldl_insert_mem (m := m.cleared a b) (nodup_movedKeys m a b) hmem
    rwa [movedKey_append] at hnew

theorem get?_move_old (ha : ¬ Under a b) (hb : ¬ Under b a) (m : Files) (l : Loc) :
    (m.move a b).get? (a ++ l) = none := by
  rw [move_eq, get?_foldl_insert, get?_cleared (.inl (List.prefix_append ..))]
  intro e _ hkey
  have hbl : Under b (a ++ l) := hkey ▸ List.prefix_append ..
  rcases List.prefix_or_prefix_of_prefix hbl (List.prefix_append a l) with h | h
  · exact hb h
  · exact ha h

theorem get?_move_other (ha : ¬ Under a l) (hb : ¬ Under b l) (m : Files) :
    (m.move a b).get? l = m.get? l := by
  rw [move_eq, get?_foldl_insert, cleared, get?_foldl_erase]
  · intro e he hel
    rcases List.mem_append.mp he with he | he
    · exact ha (hel ▸ (mem_below_iff.mp he).2)
    · exact hb (hel ▸ (mem_below_iff.mp he).2)
  · intro e _ hkey
    exact hb (hkey ▸ List.prefix_append ..)

-- ---------------------------------------------------------------------------
-- What the host allows
-- ---------------------------------------------------------------------------

def replaceable (m : Files) (b : Loc) : Node → Bool
  | .dir =>
    match m.get? b with
    | none => true
    | some .dir => m.isEmptyDir b
    | some _ => false
  | _ => m.get? b ≠ some .dir

/-- The same location, or two links to one file: there is nothing to do. -/
def SameEntry (m : Files) (a b : Loc) : Prop :=
  a = b ∨ ∃ i, m.get? a = some (.file i) ∧ m.get? b = some (.file i)

def Allows (m : Files) (a b : Loc) : Prop :=
  ∃ node, m.get? a = some node ∧ (a = b ∨ ¬ Under a b ∧ m.replaceable b node = true)

/-- Everything at and below `a` is at and below `b`, all else is where it was, and of what
was there before only the entry at `b` itself is gone. -/
structure Replaces (m : Files) (a b : Loc) (m' : Files) : Prop where
  moved : ∀ l, m'.get? (b ++ l) = m.get? (a ++ l)
  gone : ∀ l, m'.get? (a ++ l) = none
  only : ∀ l, l ≠ [] → m.get? (b ++ l) = none
  rest : ∀ l, ¬ Under a l → ¬ Under b l → m'.get? l = m.get? l

theorem not_above (hm : m.Closed) (h : m.get? a = some node) (hne : a ≠ b)
    (hr : m.replaceable b node = true) : ¬ Under b a := by
  rintro ⟨l, rfl⟩
  have hl : l ≠ [] := fun hnil => hne (by rw [hnil, List.append_nil])
  have hsome : (m.get? (b ++ l)).isSome := by rw [h]; rfl
  have hdir := hm.above hl hsome
  cases node with
  | dir =>
    simp only [replaceable, hdir] at hr
    cases h.symm.trans (get?_eq_none_of_isEmptyDir hr hl)
  | file i => simp [replaceable, hdir] at hr
  | symlink target => simp [replaceable, hdir] at hr

theorem replaces_move (hm : m.Closed) (h : m.get? a = some node) (hne : a ≠ b) (hunder : ¬ Under a b)
    (hr : m.replaceable b node = true) : Replaces m a b (m.move a b) where
  moved l := get?_move_new m a b l
  gone l := get?_move_old hunder (not_above hm h hne hr) m l
  only l hl := by
    by_cases hdir : m.get? b = some .dir
    · cases node with
      | dir =>
        simp only [replaceable, hdir] at hr
        exact get?_eq_none_of_isEmptyDir hr hl
      | file i => simp [replaceable, hdir] at hr
      | symlink target => simp [replaceable, hdir] at hr
    · exact hm.nothing_below hl hdir
  rest l ha hb := get?_move_other ha hb m

theorem Replaces.closed (h : Replaces m a (x ++ [n]) m') (hm : m.Closed) (hdir : m.get? x = some .dir)
    (hunder : ¬ Under a (x ++ [n])) : m'.Closed := by
  intro l k hsome
  by_cases hb : Under (x ++ [n]) (l ++ [k])
  · obtain ⟨rest, hrest⟩ := hb
    obtain rfl | ⟨rest, k', rfl⟩ := List.eq_nil_or_concat' rest
    · rw [List.append_nil] at hrest
      obtain ⟨rfl, -⟩ := List.append_inj' hrest rfl
      have hself : ¬ Under (x ++ [n]) x := fun hu => absurd hu.length_le (by simp)
      rw [h.rest x (fun hu => hunder (hu.append [n])) hself]
      exact hdir
    · rw [← List.append_assoc] at hrest
      obtain ⟨rfl, -⟩ := List.append_inj' hrest rfl
      rw [← hrest, List.append_assoc, h.moved, ← List.append_assoc] at hsome
      rw [h.moved]
      exact hm _ _ hsome
  · by_cases ha : Under a (l ++ [k])
    · obtain ⟨rest, hrest⟩ := ha
      rw [← hrest, h.gone] at hsome
      cases hsome
    · rw [h.rest _ ha hb] at hsome
      rw [h.rest l (fun hu => ha (hu.append [k])) (fun hu => hb (hu.append [k]))]
      exact hm l k hsome

structure Swapped (m : Files) (a b : Loc) (m' : Files) : Prop where
  old : (m.get? a).isSome
  new : (m.get? b).isSome
  there : ∀ l, m'.get? (b ++ l) = m.get? (a ++ l)
  back : ∀ l, m'.get? (a ++ l) = m.get? (b ++ l)
  rest : ∀ l, ¬ Under a l → ¬ Under b l → m'.get? l = m.get? l

theorem Replaces.not_swapped (h : Replaces m a b m') : ¬ Swapped m a b m' := by
  intro hs
  have hnone := h.gone []
  rw [hs.back, List.append_nil] at hnone
  exact absurd hs.new (by simp [hnone])

/-- Two links to one file can change places unnoticed. -/
theorem SameEntry.swapped (hm : m.Closed) (hsome : (m.get? a).isSome) (h : m.SameEntry a b) :
    Swapped m a b m := by
  have hsame : ∀ l, m.get? (b ++ l) = m.get? (a ++ l) := by
    intro l
    rcases h with rfl | ⟨i, ha, hb⟩
    · rfl
    · by_cases hl : l = []
      · rw [hl, List.append_nil, List.append_nil, ha, hb]
      · rw [hm.nothing_below hl (by simp [hb]), hm.nothing_below hl (by simp [ha])]
  refine ⟨hsome, ?_, hsame, fun l => (hsame l).symm, fun _ _ _ => rfl⟩
  have hnew := hsame []
  rw [List.append_nil, List.append_nil] at hnew
  rwa [hnew]

def renameAt (m : Files) (a b : Loc) : Except ErrorKind Files :=
  match m.get? a with
  | none => .error .notFound
  | some node =>
    if a = b then .ok m
    else if Under a b then .error .invalidInput
    else
      match node, m.get? b with
      | .dir, some .dir => if m.isEmptyDir b then .ok (m.move a b) else .error .directoryNotEmpty
      | .dir, some _ => .error .notADirectory
      | _, some .dir => .error .isADirectory
      | .file i, some (.file j) => if i = j then .ok m else .ok (m.move a b)
      | _, _ => .ok (m.move a b)

theorem rename_located (ha : locate m.tree old = .ok a) (hb : locate m.tree new = .ok b) :
    m.rename old new = m.renameAt a b := by
  simp only [rename, ha, hb, bind, Except.bind]
  rfl

theorem rename_ok (h : m.rename old new = .ok m') :
    ∃ a b, locate m.tree old = .ok a ∧ locate m.tree new = .ok b := by
  obtain ⟨a, ha, h⟩ := bind_ok h
  obtain ⟨b, hb, -⟩ := bind_ok h
  exact ⟨a, b, ha, hb⟩

theorem renameAt_of_not_allows (h : ¬ m.Allows a b) : ∃ e, m.renameAt a b = .error e := by
  unfold renameAt
  cases hget : m.get? a with
  | none => exact ⟨_, rfl⟩
  | some node =>
    have hne : a ≠ b := fun he => h ⟨node, hget, .inl he⟩
    simp only [if_neg hne]
    by_cases hunder : Under a b
    · exact ⟨_, if_pos hunder⟩
    · have hr : ¬ m.replaceable b node = true := fun hr => h ⟨node, hget, .inr ⟨hunder, hr⟩⟩
      rw [if_neg hunder]
      cases node with
      | dir =>
        cases hb : m.get? b with
        | none => simp [replaceable, hb] at hr
        | some other =>
          cases other with
          | dir =>
            simp only [replaceable, hb] at hr
            exact ⟨_, if_neg hr⟩
          | file j => exact ⟨_, rfl⟩
          | symlink target => exact ⟨_, rfl⟩
      | file i =>
        have hb : m.get? b = some .dir := by simpa [replaceable] using hr
        exact ⟨.isADirectory, by rw [hb]⟩
      | symlink target =>
        have hb : m.get? b = some .dir := by simpa [replaceable] using hr
        exact ⟨.isADirectory, by rw [hb]⟩

theorem renameAt_of_same (h : m.Allows a b) (hsame : m.SameEntry a b) : m.renameAt a b = .ok m := by
  obtain ⟨node, hget, hallowed⟩ := h
  simp only [renameAt, hget]
  by_cases hne : a = b
  · exact if_pos hne
  · obtain ⟨hunder, -⟩ := hallowed.resolve_left hne
    obtain ⟨i, ha, hb⟩ := hsame.resolve_left hne
    cases hget.symm.trans ha
    rw [if_neg hne, if_neg hunder, hb]
    exact if_pos rfl

theorem renameAt_of_allows (h : m.Allows a b) (hsame : ¬ m.SameEntry a b) :
    m.renameAt a b = .ok (m.move a b) := by
  obtain ⟨node, hget, hallowed⟩ := h
  have hne : a ≠ b := fun he => hsame (.inl he)
  obtain ⟨hunder, hr⟩ := hallowed.resolve_left hne
  simp only [renameAt, hget]
  rw [if_neg hne, if_neg hunder]
  cases node with
  | dir =>
    cases hb : m.get? b with
    | none => rfl
    | some other =>
      cases other with
      | dir =>
        simp only [replaceable, hb] at hr
        exact if_pos hr
      | file j => simp [replaceable, hb] at hr
      | symlink target => simp [replaceable, hb] at hr
  | file i =>
    cases hb : m.get? b with
    | none => rfl
    | some other =>
      cases other with
      | dir => simp [replaceable, hb] at hr
      | file j =>
        have hij : i ≠ j := fun he => hsame (.inr ⟨i, hget, he ▸ hb⟩)
        exact if_neg hij
      | symlink target => rfl
  | symlink target =>
    cases hb : m.get? b with
    | none => rfl
    | some other =>
      cases other with
      | dir => simp [replaceable, hb] at hr
      | file j => rfl
      | symlink target' => rfl

theorem found_of_locate (hb : locate m.tree p = .ok b) (hlink : ∀ target, m.get? b ≠ some (.symlink target)) :
    m.found p = m.containsKey b := by
  obtain ⟨_, _, _, _, hw⟩ := locate_ok hb
  rw [found, hw hlink]

end Files

end EdgeLibos.Lib.HostTree
