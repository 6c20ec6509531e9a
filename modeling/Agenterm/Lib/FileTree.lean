import Mathlib.Data.List.Infix

/-!
# File trees

A file system without links: the nodes by their paths from the top, where everything lies in a
directory (`FileTree`). The calls of a program on it may be refused (`none`): `createDirAll`,
`write` (which replaces a file) and `rename` (which takes everything below the node along).

What a call leaves alone is the first thing that its lemmas say: `createDirAll_keeps`,
`write_other`, `rename_other`. Names are resolved by `join`, and a plain name lies directly in the
directory it is joined to (`join_plain`).
-/

namespace Agenterm.Lib

open List

/-- The names on the way from the top. -/
abbrev TreePath := List String

inductive Node (β : Type) where
  | dir
  | file (content : β)
deriving DecidableEq

def Node.isDir {β : Type} : Node β → Bool
  | .dir => true
  | .file _ => false

structure FileTree (β : Type) where
  node : TreePath → Option (Node β)
  top_dir : node [] = some .dir
  /-- A node lies in a directory. -/
  parent_dir : ∀ p name, node (p ++ [name]) ≠ none → node p = some .dir

variable {name : String} {p q src : TreePath}

namespace FileTree

variable {β : Type}

def isDir (t : FileTree β) (p : TreePath) : Bool := (t.node p).any Node.isDir

@[simp] lemma isDir_iff {t : FileTree β} : t.isDir p = true ↔ t.node p = some .dir := by
  unfold isDir
  cases h : t.node p with
  | none => simp
  | some node => cases node <;> simp [Node.isDir]

def exists? (t : FileTree β) (p : TreePath) : Bool := (t.node p).isSome

/-- Everything above a node is a directory. -/
theorem dir_of_append (t : FileTree β) (hq : q ≠ []) (h : t.node (p ++ q) ≠ none) :
    t.node p = some .dir := by
  induction q using List.reverseRecOn with
  | nil => exact absurd rfl hq
  | append_singleton q name ih =>
    rw [← append_assoc] at h
    have hdir := t.parent_dir (p ++ q) name h
    cases q with
    | nil => rwa [append_nil] at hdir
    | cons first rest => exact ih (by simp) (by rw [hdir]; simp)

lemma dir_of_prefix (t : FileTree β) (hpre : p <+: q) (h : t.node q = some .dir) :
    t.node p = some .dir := by
  obtain ⟨r, rfl⟩ := hpre
  cases r with
  | nil => rwa [append_nil] at h
  | cons first rest => exact t.dir_of_append (cons_ne_nil first rest) (by rw [h]; simp)

/-- Nothing lies below a file or a path without a node. -/
lemma node_append_eq_none (t : FileTree β) (hq : q ≠ []) (h : t.node p ≠ some .dir) :
    t.node (p ++ q) = none := by
  by_contra hnode
  exact h (t.dir_of_append hq hnode)

/-! ## Making directories -/

/-- Makes a directory and those above it, unless there is a file in the way. -/
def createDirAll (t : FileTree β) (p : TreePath) : Option (FileTree β) :=
  if p.inits.all fun q => !t.exists? q || t.isDir q then
    some {
      node := fun q => if q <+: p then some .dir else t.node q
      top_dir := if_pos nil_prefix
      parent_dir := by
        intro q name h
        by_cases hq : q <+: p
        · exact if_pos hq
        · have hlong : ¬ q ++ [name] <+: p := fun hlong => hq ((prefix_append ..).trans hlong)
          rw [if_neg hlong] at h
          rw [if_neg hq]
          exact t.parent_dir q name h }
  else
    none

/-- What was there is left as it was. -/
theorem createDirAll_keeps {t t' : FileTree β} (h : t.createDirAll p = some t')
    (hq : t.node q ≠ none ∨ ¬ q <+: p) : t'.node q = t.node q := by
  unfold createDirAll at h
  split at h
  · rename_i hall
    rw [Option.some.injEq] at h
    subst h
    dsimp only
    by_cases hpre : q <+: p
    · rw [if_pos hpre]
      have hdir := all_eq_true.mp hall q ((mem_inits q p).mpr hpre)
      have hsome : t.exists? q = true := by
        rcases hq with hq | hq
        · exact Option.isSome_iff_ne_none.mpr hq
        · exact absurd hpre hq
      rw [hsome, Bool.not_true, Bool.false_or, isDir_iff] at hdir
      exact hdir.symm
    · exact if_neg hpre
  · cases h

/-! ## Writing files -/

/-- Writes a file anew, in a directory that exists and not over a directory. -/
def write (t : FileTree β) (p : TreePath) (name : String) (content : β) : Option (FileTree β) :=
  if h : t.isDir p ∧ ¬ t.isDir (p ++ [name]) then
    some {
      node := fun q => if q = p ++ [name] then some (.file content) else t.node q
      top_dir := by
        rw [if_neg (by simp)]
        exact t.top_dir
      parent_dir := by
        intro q child hchild
        rw [isDir_iff, isDir_iff] at h
        by_cases hq : q = p ++ [name]
        · -- nothing lies below the new file
          subst hq
          rw [if_neg (by simp), t.node_append_eq_none (by simp) h.2] at hchild
          exact absurd rfl hchild
        · rw [if_neg hq]
          by_cases hfile : q ++ [child] = p ++ [name]
          · obtain ⟨rfl, -⟩ := append_inj' hfile rfl
            exact h.1
          · rw [if_neg hfile] at hchild
            exact t.parent_dir q child hchild }
  else
    none

theorem write_spec {t t' : FileTree β} {content : β} (h : t.write p name content = some t') :
    t.node p = some .dir ∧ t.node (p ++ [name]) ≠ some .dir ∧
      t'.node (p ++ [name]) = some (.file content) := by
  unfold write at h
  split at h
  · rename_i hcond
    rw [isDir_iff, isDir_iff] at hcond
    rw [Option.some.injEq] at h
    subst h
    exact ⟨hcond.1, hcond.2, if_pos rfl⟩
  · cases h

theorem write_other {t t' : FileTree β} {content : β} (h : t.write p name content = some t')
    (hq : q ≠ p ++ [name]) : t'.node q = t.node q := by
  unfold write at h
  split at h
  · rw [Option.some.injEq] at h
    subst h
    exact if_neg hq
  · cases h

theorem exists_write {t : FileTree β} (content : β) (hdir : t.node p = some .dir)
    (hname : t.node (p ++ [name]) ≠ some .dir) : ∃ t', t.write p name content = some t' := by
  unfold write
  rw [dif_pos ⟨isDir_iff.mpr hdir, fun h => hname (isDir_iff.mp h)⟩]
  exact ⟨_, rfl⟩

/-! ## Renaming -/

/-- Whether a node may take the place of what is at a path: of nothing, or a file of a file. An
empty directory, which some systems let a directory replace, is not replaced. -/
def replaceable (node : Node β) : Option (Node β) → Bool
  | none => true
  | some target => !node.isDir && !target.isDir

/-- Moves the node at `src` and what lies below it to `name` in the directory `p`. A node is not
moved to a place below itself. -/
def rename (t : FileTree β) (src p : TreePath) (name : String) : Option (FileTree β) :=
  match hsrc : t.node src with
  | none => none
  | some node =>
    if h : t.isDir p ∧ ¬ src <+: p ++ [name] ∧ replaceable node (t.node (p ++ [name])) then
      some {
        node := fun q =>
          if p ++ [name] <+: q then t.node (src ++ q.drop (p ++ [name]).length)
          else if src <+: q then none else t.node q
        top_dir := by
          have hsrc' : ¬ src <+: [] := fun hnil => h.2.1 (hnil.trans nil_prefix)
          rw [if_neg (by simp), if_neg hsrc']
          exact t.top_dir
        parent_dir := by
          intro q child hchild
          rw [isDir_iff] at h
          by_cases hq : p ++ [name] <+: q
          · -- below the new place, the parent moved along
            obtain ⟨r, rfl⟩ := hq
            rw [if_pos ⟨r ++ [child], by simp⟩, append_assoc, drop_left,
              ← append_assoc] at hchild
            rw [if_pos (prefix_append ..), drop_left]
            exact t.parent_dir _ _ hchild
          · rw [if_neg hq]
            by_cases hnew : p ++ [name] <+: q ++ [child]
            · -- the new place itself, in a directory that is not moved
              have heq : q = p := by
                rcases prefix_concat_iff.mp hnew with hnew | hnew
                · exact (append_inj' hnew rfl).1.symm
                · exact absurd hnew hq
              subst heq
              rw [if_neg fun hpre => h.2.1 (hpre.trans (prefix_append ..))]
              exact h.1
            · rw [if_neg hnew] at hchild
              by_cases hold : src <+: q ++ [child]
              · rw [if_pos hold] at hchild
                exact absurd rfl hchild
              · rw [if_neg hold] at hchild
                rw [if_neg fun hpre => hold (hpre.trans (prefix_append ..))]
                exact t.parent_dir q child hchild }
    else
      none

/-- What renaming asks for, and what is where afterwards. -/
theorem rename_spec {t t' : FileTree β} (h : t.rename src p name = some t') :
    (∃ node, t.node src = some node ∧ replaceable node (t.node (p ++ [name]))) ∧
      t.node p = some .dir ∧ ¬ src <+: p ++ [name] ∧
      (∀ q, t'.node (p ++ [name] ++ q) = t.node (src ++ q)) ∧
      ∀ q, ¬ p ++ [name] <+: q → t'.node q = if src <+: q then none else t.node q := by
  unfold rename at h
  split at h
  · cases h
  · rename_i node hsrc
    split at h
    · rename_i hcond
      rw [isDir_iff] at hcond
      rw [Option.some.injEq] at h
      subst h
      refine ⟨⟨node, hsrc, hcond.2.2⟩, hcond.1, hcond.2.1, fun q => ?_, fun q hq => if_neg hq⟩
      dsimp only
      rw [if_pos (prefix_append ..), drop_left]
    · cases h

theorem rename_other {t t' : FileTree β} (h : t.rename src p name = some t')
    (hdst : ¬ p ++ [name] <+: q) (hsrc : ¬ src <+: q) : t'.node q = t.node q := by
  rw [(rename_spec h).2.2.2.2 q hdst, if_neg hsrc]

/-- A file is moved into a directory over nothing or another file. -/
theorem exists_rename_file {t : FileTree β} {content : β}
    (hsrc : t.node src = some (.file content)) (hdir : t.node p = some .dir)
    (hne : src ≠ p ++ [name]) (hname : t.node (p ++ [name]) ≠ some .dir) :
    ∃ t', t.rename src p name = some t' := by
  have hbelow : ¬ src <+: p ++ [name] := by
    intro hpre
    rcases prefix_concat_iff.mp hpre with heq | hp
    · exact hne heq
    · have hdir' := t.dir_of_prefix hp hdir
      rw [hsrc] at hdir'
      cases hdir'
  have hrep : replaceable (.file content) (t.node (p ++ [name])) = true := by
    cases htarget : t.node (p ++ [name]) with
    | none => rfl
    | some target =>
      cases target with
      | dir => exact absurd htarget hname
      | file other => rfl
  unfold rename
  split
  · rename_i hnone
    rw [hsrc] at hnone
    cases hnone
  · rename_i node hnode
    rw [hsrc, Option.some.injEq] at hnode
    subst hnode
    rw [dif_pos ⟨isDir_iff.mpr hdir, hbelow, hrep⟩]
    exact ⟨_, rfl⟩

end FileTree

/-! ## Names -/

def pathSegments (s : String) : List String := (s.toList.splitOn '/').map String.ofList

/-- The place a segment of a path leads to. -/
def TreePath.enter (p : TreePath) (segment : String) : TreePath :=
  if segment = "" ∨ segment = "." then p
  else if segment = ".." then p.dropLast
  else p ++ [segment]

/-- The place that a path of the system names, from a directory: an absolute one starts at the
top. -/
def TreePath.join (p : TreePath) (s : String) : TreePath :=
  (pathSegments s).foldl TreePath.enter (if s.toList.head? = some '/' then [] else p)

/-- A name of something that lies directly in a directory. -/
structure PlainName (s : String) : Prop where
  not_empty : s ≠ ""
  not_self : s ≠ "."
  not_parent : s ≠ ".."
  not_slash : '/' ∉ s.toList

instance decidablePlainName (s : String) : Decidable (PlainName s) :=
  decidable_of_iff (s ≠ "" ∧ s ≠ "." ∧ s ≠ ".." ∧ '/' ∉ s.toList)
    ⟨fun h => ⟨h.1, h.2.1, h.2.2.1, h.2.2.2⟩,
      fun h => ⟨h.not_empty, h.not_self, h.not_parent, h.not_slash⟩⟩

theorem TreePath.join_plain (p : TreePath) {s : String} (h : PlainName s) :
    p.join s = p ++ [s] := by
  have hhead : s.toList.head? ≠ some '/' := fun hhead => h.not_slash (mem_of_mem_head? hhead)
  have hsegments : pathSegments s = [s] := by
    rw [pathSegments, splitOn_eq_singleton h.not_slash, map_singleton,
      String.ofList_toList]
  rw [TreePath.join, hsegments, if_neg hhead, foldl_cons, foldl_nil, TreePath.enter,
    if_neg (by simp [h.not_empty, h.not_self]), if_neg h.not_parent]

end Agenterm.Lib
