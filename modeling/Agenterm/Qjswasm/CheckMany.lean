import Agenterm.Lib.FileTree
import Agenterm.Qjswasm.ModuleResolver
import Agenterm.Text

/-!
# Checking many files

`check_many.rs`: a listed library is not compiled as it stands. A generated script imports it by a
specifier, which the resolver of the ledger reads under the directory of the entry, the script root
and the project root. The project is a tree without links that stays as it is.
-/

namespace Agenterm.Qjswasm

open Lib List

/-! ## Project trees -/

/-- The names that a directory can hold. -/
def validName (name : String) : Bool :=
  name ≠ "" && name ≠ "." && name ≠ ".." && !(name.toList.contains '/')

structure ProjectTree extends FileTree ByteArray where
  names : ∀ p name, node (p ++ [name]) ≠ none → validName name = true
  sizes : ∀ p content, node p = some (.file content) → content.size ≤ u64Max

namespace ProjectTree

def isFile (t : ProjectTree) (p : TreePath) : Bool :=
  match t.node p with
  | some (.file _) => true
  | _ => false

/-- Where the segments of a path lead: each is looked up in a directory. -/
def walk (t : ProjectTree) : TreePath → Segments → Option TreePath
  | p, [] => if t.exists? p then some p else none
  | p, segment :: rest =>
    if t.isDir p then
      if segment = "" ∨ segment = "." then walk t p rest
      else if segment = ".." then walk t p.dropLast rest
      else walk t (p ++ [segment]) rest
    else none

/-- `Path::canonicalize` of an absolute path. -/
def canonicalize (t : ProjectTree) (path : Segments) : Option CanonicalPath := t.walk [] path

def fileSystem (t : ProjectTree) : FileSystem where
  canonicalize := t.canonicalize
  metadata path :=
    match t.node path with
    | some (.file content) => .ok ⟨true, content.size⟩
    | some .dir => .ok ⟨false, 0⟩
    | none => .error "No such file or directory (os error 2)"
  read path :=
    match t.node path with
    | some (.file content) => .ok (.ok content)
    | some .dir => .ok (.error "Is a directory (os error 21)")
    | none => .error "No such file or directory (os error 2)"

end ProjectTree

/-! ## The generated script -/

/-- A line begins with `export`, perhaps indented. -/
def isLibrary (source : String) : Bool :=
  (source.toList.splitOn '\n').any fun line =>
    "export ".toList.isPrefixOf (line.dropWhile isWhitespace)

/-- `Path::with_extension("")` of a name. -/
def withoutExtension (name : String) : String :=
  let front := (name.toList.reverse.dropWhile (· ≠ '.')).tail.reverse
  if front = [] then name else String.ofList front

/-- The segments of a relative path in a specifier: a backslash separates them too. -/
def specifierOf (relative : TreePath) : String :=
  String.ofList (("/".intercalate
    (relative.dropLast ++ (relative.getLast?.map withoutExtension).toList)).toList.map
      fun c => if c = '\\' then '/' else c)

def importer (specifier : String) : String :=
  "import * as lib from \"" ++ specifier ++ "\"; return typeof lib;"

namespace ProjectTree

def moduleRoot (t : ProjectTree) (root : TreePath) : TreePath :=
  let scriptRoot := root ++ ["scripts", "qjs"]
  if t.isDir scriptRoot then scriptRoot else root

def checkRoots (t : ProjectTree) (root path : TreePath) : List TreePath :=
  [path.dropLast, t.moduleRoot root, root]

def importerSpecifier (t : ProjectTree) (root path : TreePath) : Option String :=
  ((path.dropPrefix? (t.moduleRoot root)).or (path.dropPrefix? root)).map specifierOf

def checkedSource (t : ProjectTree) (root path : TreePath) (source : String) : String :=
  if isLibrary source then ((t.importerSpecifier root path).map importer).getD source else source

end ProjectTree

/-! ## Where a specifier leads -/

variable {front path : Segments} {name : String}

namespace ProjectTree

variable (t : ProjectTree)

/-- The file that a root has for a specifier. -/
def fileAt (specifier : String) (root : CanonicalPath) : Option CanonicalPath :=
  (t.canonicalize (candidate root specifier)).filter fun p => root.isPrefixOf p && t.isFile p

/-- The file of the first root that has one. -/
def firstFile (specifier : String) (roots : List CanonicalPath) : Option CanonicalPath :=
  roots.findSome? (t.fileAt specifier)

section
variable {t} {p q : TreePath} {names : List String}

lemma validName_iff : validName name = true ↔
    name ≠ "" ∧ name ≠ "." ∧ name ≠ ".." ∧ '/' ∉ name.toList := by
  simp [validName, and_assoc]

lemma isFile_iff : t.isFile p = true ↔ ∃ content, t.node p = some (.file content) := by
  unfold isFile
  split
  next content h => exact ⟨fun _ => ⟨content, h⟩, fun _ => rfl⟩
  next h => exact ⟨fun hfalse => absurd hfalse Bool.false_ne_true,
      fun ⟨content, hfile⟩ => absurd hfile (h content)⟩

lemma isFile_of_isDir (h : t.isDir p = true) : t.isFile p = false := by
  rw [FileTree.isDir_iff] at h
  unfold isFile
  rw [h]

/-- The names on the way to a node are valid. -/
lemma validName_of_node (h : t.node p ≠ none) : ∀ name ∈ p, validName name = true := by
  induction p using List.reverseRecOn with
  | nil => exact fun name hmem => nomatch hmem
  | append_singleton p last ih =>
    intro name hmem
    rcases mem_append.mp hmem with hmem | hmem
    · have hdir := t.parent_dir p last h
      exact ih (by rw [hdir]; exact Option.some_ne_none _) name hmem
    · rw [mem_singleton.mp hmem]
      exact t.names p last h

lemma walk_append (front back : Segments) :
    t.walk p (front ++ back) = (t.walk p front).bind fun q => t.walk q back := by
  induction front generalizing p with
  | nil =>
    rw [nil_append, walk]
    split
    next => rfl
    next hnone =>
      have hdir : ¬ t.isDir p = true := by
        intro hdir
        apply hnone
        rw [FileTree.isDir_iff] at hdir
        rw [FileTree.exists?, hdir]
        rfl
      cases back with
      | nil => exact if_neg hnone
      | cons segment rest => exact if_neg hdir
  | cons segment front ih =>
    rw [cons_append, walk, walk]
    split
    · split
      · exact ih
      · split
        · exact ih
        · exact ih
    · rfl

/-- Valid names lead straight down. -/
lemma walk_names (hnames : ∀ name ∈ names, validName name = true) :
    t.walk p names = if t.exists? (p ++ names) then some (p ++ names) else none := by
  induction names generalizing p with
  | nil => rw [append_nil, walk]
  | cons name names ih =>
    obtain ⟨hempty, hdot, hdots, -⟩ := validName_iff.mp (hnames name mem_cons_self)
    have hplain : ¬ (name = "" ∨ name = ".") := fun h => h.elim hempty hdot
    rw [walk]
    by_cases hdir : t.isDir p = true
    · rw [if_pos hdir, if_neg hplain, if_neg hdots,
        ih fun n hn => hnames n (mem_cons_of_mem _ hn), append_assoc,
        singleton_append]
    · rw [if_neg hdir]
      have hnone : t.node (p ++ name :: names) = none :=
        t.node_append_eq_none (cons_ne_nil _ _) fun h => hdir (FileTree.isDir_iff.mpr h)
      rw [FileTree.exists?, hnone]
      rfl

/-- What is found is there. -/
lemma node_of_canonicalize (h : t.canonicalize path = some q) : t.node q ≠ none := by
  have hwalk {p : TreePath} {path : Segments} (h : t.walk p path = some q) : t.node q ≠ none := by
    induction path generalizing p with
    | nil =>
      obtain ⟨hexists, hq⟩ := Option.ite_none_right_eq_some.mp h
      rw [← Option.some.inj hq]
      exact Option.isSome_iff_ne_none.mp hexists
    | cons segment rest ih =>
      rw [walk] at h
      obtain ⟨-, h⟩ := Option.ite_none_right_eq_some.mp h
      split at h
      · exact ih h
      · split at h
        · exact ih h
        · exact ih h
  exact hwalk h

/-- A path of valid names is its own canonical path. -/
lemma canonicalize_names (hnames : ∀ name ∈ p, validName name = true) :
    t.canonicalize ("" :: p) = if t.exists? p then some p else none := by
  have htop : t.isDir [] = true := FileTree.isDir_iff.mpr t.top_dir
  rw [canonicalize, walk, if_pos htop, if_pos (.inl rfl), walk_names hnames, nil_append]

end

end ProjectTree

/-! ## Names of files -/

/-- The name of a library has one dot before its extension, or a dot in front. -/
def PlainName (name : String) : Prop :=
  ∃ stem : String, name = stem ++ ".qjs" ∧ stem ≠ "" ∧ stem ≠ "." ∧ '.' ∉ stem.toList.tail

lemma withoutExtension_qjs (stem : String) :
    withoutExtension (stem ++ ".qjs") = if stem = "" then ".qjs" else stem := by
  have hdrop : ((stem ++ ".qjs").toList.reverse.dropWhile (· ≠ '.')).tail.reverse =
      stem.toList := by
    rw [String.toList_append, reverse_append]
    show (('.' :: stem.toList.reverse).tail).reverse = _
    rw [tail_cons, reverse_reverse]
  unfold withoutExtension
  rw [hdrop]
  by_cases hstem : stem = ""
  · subst hstem
    rfl
  · have hne : stem.toList ≠ [] := fun h => hstem (String.toList_eq_nil_iff.mp h)
    rw [if_neg hne, if_neg hstem, String.ofList_toList]

/-! ## Segments -/

lemma trimmed_append (hempty : name ≠ "") (hdot : name ≠ ".") :
    trimmed (front ++ [name]) = front ++ [name] := by
  unfold trimmed
  rw [reverse_append, reverse_singleton, singleton_append,
    dropWhile_cons_of_neg (by simp [hempty, hdot]), reverse_cons, reverse_reverse]

lemma fileName_append (hempty : name ≠ "") (hdot : name ≠ ".") (hdots : name ≠ "..") :
    fileName (front ++ [name]) = some name := by
  rw [fileName, trimmed_append hempty hdot, List.getLast?_concat]
  exact Option.filter_some_pos (decide_eq_true hdots)

/-- The name of a file is none of the special segments. -/
lemma fileName_eq_some (h : fileName path = some name) : name ≠ "" ∧ name ≠ "." ∧ name ≠ ".." := by
  obtain ⟨hlast, hdots⟩ := Option.filter_eq_some_iff.mp h
  have hhead := List.head?_dropWhile_not (fun segment => segment = "" ∨ segment = ".") path.reverse
  rw [trimmed, List.getLast?_reverse] at hlast
  rw [hlast] at hhead
  simp only [decide_eq_false_iff_not, not_or] at hhead
  exact ⟨hhead.1, hhead.2, of_decide_eq_true hdots⟩

variable {c : Char} {segment stem : String}

/-- A path without an extension whose file has a plain name. -/
lemma candidate_of_plain (hempty : stem ≠ "") (hdot : stem ≠ ".")
    (hplain : '.' ∉ stem.toList.tail) :
    (if hasExtension (front ++ [stem]) then front ++ [stem]
      else setExtension (front ++ [stem]) "qjs") = front ++ [stem ++ ".qjs"] := by
  have hdots : stem ≠ ".." := by
    rintro rfl
    exact hplain (by decide)
  have hname : fileName (front ++ [stem]) = some stem := fileName_append hempty hdot hdots
  have hnone : hasExtension (front ++ [stem]) = false := by
    rw [hasExtension, hname]
    simpa using hplain
  rw [hnone, if_neg Bool.false_ne_true, setExtension, hname, trimmed_append hempty hdot,
    dropLast_concat]
  show front ++ [stem ++ "." ++ "qjs"] = _
  rw [String.append_assoc]
  rfl

lemma mem_withoutExtension (h : c ∈ (withoutExtension name).toList) : c ∈ name.toList := by
  unfold withoutExtension at h
  dsimp only at h
  split at h
  · exact h
  · rw [String.toList_ofList, mem_reverse] at h
    exact mem_reverse.mp ((dropWhile_sublist _).mem (mem_of_mem_tail h))

lemma withoutExtension_ne_empty (h : name ≠ "") : withoutExtension name ≠ "" := by
  unfold withoutExtension
  dsimp only
  split
  next => exact h
  next hfront => exact fun hempty => hfront (by simpa using congrArg String.toList hempty)

/-- What is in joined lists. -/
lemma mem_intercalate {sep : Char} {lists : List (List Char)} (h : c ∈ [sep].intercalate lists) :
    c = sep ∨ ∃ l ∈ lists, c ∈ l := by
  induction lists with
  | nil => cases h
  | cons first lists ih =>
    cases lists with
    | nil =>
      rw [intercalate_singleton] at h
      exact .inr ⟨first, mem_cons_self, h⟩
    | cons second lists =>
      rw [intercalate_cons_cons, mem_append, mem_append, mem_singleton] at h
      rcases h with (hfirst | hsep) | hrest
      · exact .inr ⟨first, mem_cons_self, hfirst⟩
      · exact .inl hsep
      · exact (ih hrest).imp id fun ⟨l, hl, hc⟩ => ⟨l, mem_cons_of_mem _ hl, hc⟩

/-- The names of a relative path come back from its specifier, if no name has a backslash. -/
lemma segments_specifierOf {dirs : TreePath} (hnames : ∀ n ∈ dirs ++ [name], validName n = true)
    (hslash : ∀ n ∈ dirs ++ [name], '\\' ∉ n.toList) :
    segments (specifierOf (dirs ++ [name])) = dirs ++ [withoutExtension name] ∧
      (specifierOf (dirs ++ [name])).toList.head? ≠ some '/' := by
  have hsegments : ∀ n ∈ dirs ++ [withoutExtension name],
      '/' ∉ n.toList ∧ '\\' ∉ n.toList ∧ n ≠ "" := by
    intro n hn
    rcases mem_append.mp hn with hdir | hlast
    · have hmem := mem_append_left [name] hdir
      obtain ⟨hempty, -, -, hplain⟩ := ProjectTree.validName_iff.mp (hnames n hmem)
      exact ⟨hplain, hslash n hmem, hempty⟩
    · have hmem : name ∈ dirs ++ [name] := mem_append_right dirs (mem_singleton_self name)
      obtain ⟨hempty, -, -, hplain⟩ := ProjectTree.validName_iff.mp (hnames name hmem)
      rw [mem_singleton.mp hlast]
      exact ⟨fun h => hplain (mem_withoutExtension h),
        fun h => hslash name hmem (mem_withoutExtension h), withoutExtension_ne_empty hempty⟩
  have htext : (specifierOf (dirs ++ [name])).toList =
      ['/'].intercalate ((dirs ++ [withoutExtension name]).map String.toList) := by
    rw [specifierOf, dropLast_concat, List.getLast?_concat, String.toList_ofList,
      String.toList_intercalate]
    refine (map_congr_left fun c hc => if_neg ?_).trans (map_id _)
    rintro rfl
    rcases mem_intercalate hc with hsep | ⟨l, hl, hmem⟩
    · exact absurd hsep (by decide)
    · obtain ⟨n, hn, rfl⟩ := mem_map.mp hl
      exact (hsegments n hn).2.1 hmem
  constructor
  · rw [segments, htext, splitOn_intercalate, map_map]
    · refine (map_congr_left fun n _ => ?_).trans (map_id _)
      exact String.ofList_toList
    · intro l hl
      obtain ⟨n, hn, rfl⟩ := mem_map.mp hl
      exact (hsegments n hn).1
    · exact fun h => append_ne_nil_of_right_ne_nil dirs (cons_ne_nil _ [])
        (map_eq_nil_iff.mp h)
  · -- the first segment is not empty and has no slash
    rw [htext]
    obtain ⟨first, rest, hfirst⟩ : ∃ first rest, dirs ++ [withoutExtension name] = first :: rest :=
      exists_cons_of_ne_nil (append_ne_nil_of_right_ne_nil dirs (cons_ne_nil _ []))
    have hmem : first ∈ dirs ++ [withoutExtension name] := by
      rw [hfirst]
      exact mem_cons_self
    obtain ⟨hplain, -, hempty⟩ := hsegments first hmem
    rw [hfirst, map_cons]
    intro hhead
    apply hplain
    have hchars : first.toList ≠ [] := fun h => hempty (String.toList_eq_nil_iff.mp h)
    obtain ⟨c, chars, hcons⟩ := exists_cons_of_ne_nil hchars
    rw [hcons] at hhead ⊢
    cases rest with
    | nil =>
      rw [map_nil, intercalate_singleton] at hhead
      exact mem_of_mem_head? hhead
    | cons second rest =>
      rw [map_cons, intercalate_cons_cons] at hhead
      exact mem_of_mem_head? (l := c :: chars) hhead

namespace ProjectTree

variable {t : ProjectTree} {root : CanonicalPath} {dirs : TreePath}

variable {q : TreePath}

/-- A path to a file ends with the name of the file. -/
lemma walk_last {p : TreePath} (h : t.walk p [segment] = some q) (hfile : t.isFile q = true) :
    q = p ++ [segment] := by
  have hnotdir : ¬ t.isDir q = true := fun hdir => by
    rw [isFile_of_isDir hdir] at hfile
    exact absurd hfile Bool.false_ne_true
  have hend {p' : TreePath} (hwalk : t.walk p' [] = some q) : q = p' := by
    rw [walk] at hwalk
    exact (Option.some.inj (Option.ite_none_right_eq_some.mp hwalk).2).symm
  rw [walk] at h
  obtain ⟨hdir, h⟩ := Option.ite_none_right_eq_some.mp h
  split at h
  · exact absurd (by rwa [hend h]) hnotdir
  · split at h
    · -- the directory above
      have hup := t.dir_of_prefix (List.dropLast_prefix p) (FileTree.isDir_iff.mp hdir)
      exact absurd (by rwa [hend h, FileTree.isDir_iff]) hnotdir
    · exact hend h

lemma canonicalize_last (h : t.canonicalize (path ++ [segment]) = some q)
    (hfile : t.isFile q = true) : q.getLast? = some segment := by
  rw [canonicalize, walk_append] at h
  obtain ⟨p, -, h⟩ := Option.bind_eq_some_iff.mp h
  rw [walk_last h hfile, List.getLast?_concat]

/-- The candidate of a relative path without backslashes. -/
lemma candidate_specifierOf (hnames : ∀ n ∈ dirs ++ [name], validName n = true)
    (hslash : ∀ n ∈ dirs ++ [name], '\\' ∉ n.toList) :
    candidate root (specifierOf (dirs ++ [name])) =
      if hasExtension ("" :: root ++ dirs ++ [withoutExtension name]) then
        "" :: root ++ dirs ++ [withoutExtension name]
      else setExtension ("" :: root ++ dirs ++ [withoutExtension name]) "qjs" := by
  obtain ⟨hsegments, hhead⟩ := segments_specifierOf hnames hslash
  have hjoin : join root (specifierOf (dirs ++ [name])) =
      "" :: root ++ dirs ++ [withoutExtension name] := by
    rw [join, if_neg hhead, hsegments, append_assoc]
  rw [candidate, hjoin]

/-- A root has a file for a plain name where it has the same path. -/
lemma fileAt_plain (hroot : ∀ n ∈ root, validName n = true)
    (hnames : ∀ n ∈ dirs ++ [name], validName n = true)
    (hslash : ∀ n ∈ dirs ++ [name], '\\' ∉ n.toList) (hplain : PlainName name) :
    t.fileAt (specifierOf (dirs ++ [name])) root =
      if t.isFile (root ++ (dirs ++ [name])) then some (root ++ (dirs ++ [name])) else none := by
  obtain ⟨stem, rfl, hempty, hdot, hone⟩ := hplain
  have hall : ∀ n ∈ root ++ (dirs ++ [stem ++ ".qjs"]), validName n = true :=
    fun n hn => (mem_append.mp hn).elim (hroot n) (hnames n)
  rw [fileAt, candidate_specifierOf hnames hslash, withoutExtension_qjs, if_neg hempty,
    candidate_of_plain hempty hdot hone, append_assoc, cons_append,
    canonicalize_names hall]
  by_cases hfile : t.isFile (root ++ (dirs ++ [stem ++ ".qjs"])) = true
  · obtain ⟨content, hnode⟩ := isFile_iff.mp hfile
    have hexists : t.exists? (root ++ (dirs ++ [stem ++ ".qjs"])) = true := by
      rw [FileTree.exists?, hnode]
      rfl
    rw [if_pos hexists, if_pos hfile]
    refine Option.filter_some_pos ?_
    rw [hfile, Bool.and_true, isPrefixOf_iff_prefix]
    exact prefix_append _ _
  · rw [if_neg hfile]
    split
    · refine Option.filter_some_neg ?_
      rw [Bool.not_eq_true] at hfile
      rw [hfile, Bool.and_false]
    · rfl

/-- No root has the file of an entry for a name that is not plain. -/
lemma plain_of_fileAt {path : TreePath}
    (hnames : ∀ n ∈ dirs ++ [stem ++ ".qjs"], validName n = true)
    (hslash : ∀ n ∈ dirs ++ [stem ++ ".qjs"], '\\' ∉ n.toList)
    (hpath : path.getLast? = some (stem ++ ".qjs"))
    (h : t.fileAt (specifierOf (dirs ++ [stem ++ ".qjs"])) root = some path) :
    PlainName (stem ++ ".qjs") := by
  obtain ⟨hwalk, hkept⟩ := Option.filter_eq_some_iff.mp h
  have hfile : t.isFile path = true := (Bool.and_eq_true _ _ ▸ hkept).2
  have hvalid := hnames (stem ++ ".qjs") (mem_append_right _ (mem_singleton_self _))
  obtain ⟨hempty, hdot, hdots, -⟩ := validName_iff.mp hvalid
  rw [candidate_specifierOf hnames hslash] at hwalk
  -- the path as it is would end with the name without its extension
  have hsame (hunchanged : t.canonicalize
      ("" :: root ++ dirs ++ [withoutExtension (stem ++ ".qjs")]) = some path) :
      stem = "" ∧ withoutExtension (stem ++ ".qjs") = ".qjs" := by
    have hlast := canonicalize_last hunchanged hfile
    rw [hpath, withoutExtension_qjs, Option.some.injEq] at hlast
    split at hlast
    next hstem => exact ⟨hstem, by rw [withoutExtension_qjs, if_pos hstem]⟩
    next =>
      have hlength := congrArg String.length hlast
      rw [String.length_append] at hlength
      exact absurd hlength (by simp)
  have hname (hstem : withoutExtension (stem ++ ".qjs") = ".qjs") :
      fileName ("" :: root ++ dirs ++ [withoutExtension (stem ++ ".qjs")]) = some ".qjs" := by
    rw [hstem]
    exact fileName_append (by decide) (by decide) (by decide)
  split at hwalk
  next hext =>
    obtain ⟨-, hstem⟩ := hsame hwalk
    rw [hasExtension, hname hstem] at hext
    exact absurd hext (by decide)
  next hext =>
    cases hlast : fileName ("" :: root ++ dirs ++ [withoutExtension (stem ++ ".qjs")]) with
    | none =>
      rw [setExtension, hlast] at hwalk
      obtain ⟨-, hstem⟩ := hsame hwalk
      rw [hname hstem] at hlast
      cases hlast
    | some found =>
      rw [setExtension, hlast] at hwalk
      have hends := canonicalize_last hwalk hfile
      obtain ⟨hempty, hdot, -⟩ := fileName_eq_some hlast
      rw [hasExtension, hlast] at hext
      rw [hpath, Option.some.injEq] at hends
      refine ⟨found, ?_, hempty, hdot, by simpa using hext⟩
      rw [hends, String.append_assoc]
      rfl

end ProjectTree

end Agenterm.Qjswasm
