import Agenterm.Lib.Checks
import Agenterm.Qjswasm.CheckMany
import Agenterm.Qjswasm.ModuleResolverTheorems

/-!
# The file that is checked

On a tree that stays as it is, the resolver answers with the first file that the roots have for a
specifier. For the specifier of a listed library that need not be the library: a root that comes
earlier may hold the same relative path, and a dot in the name is taken for an extension
(`checked_file_iff`).
-/

namespace Agenterm.Qjswasm

open Lib List Option ResolverLedger ProjectTree

/-! ## The resolver on a tree -/

variable {nodes : List (TreePath × Node ByteArray)} {p : TreePath}
  {result : ResolverLedger × Option Resolved}

namespace ResolverLedger

variable {t : ProjectTree} {quoted : String → String} {builtin : String → Option String}
  {ledger : ResolverLedger} {specifier source : String} {path root : CanonicalPath}
  {content : ByteArray} {afterRead : Moment}

/-- What is done with a file that was found. -/
def take (quoted : String → String) (ledger : ResolverLedger) (specifier : String)
    (path root : CanonicalPath) (content : ByteArray) (afterRead : Moment) :
    ResolverLedger × Option Resolved :=
  match ledger.resolvedModules.lookup path with
  | some source => (ledger, some ⟨.file path root, source⟩)
  | none =>
    match ledger.priced quoted specifier (min content.size u64Max) with
    | .error failure => ledger.refuse failure
    | .ok () => ledger.load quoted specifier path root (.ok (.ok content)) afterRead

/-- The modules that are held are files of the tree. -/
def HoldsFiles (t : ProjectTree) (ledger : ResolverLedger) : Prop :=
  ∀ path source, ledger.resolvedModules.lookup path = some source →
    ∃ content, t.node path = some (.file content) ∧ String.fromUTF8? content = some source

/-- No limit is in the way of a file of this size. -/
structure Admits (ledger : ResolverLedger) (entered afterRead : Moment) (size : Nat) : Prop where
  failure : ledger.failure = none
  entered : ledger.interrupted entered = none
  afterRead : ledger.interrupted afterRead = none
  size_le : size ≤ u64Max
  perSource : size ≤ ledger.perSourceMax
  modules : ledger.importedModules < ledger.modulesMax
  aggregate : saturatingAdd ledger.compileSourceBytes size ≤ ledger.aggregateSourceMax

lemma readToString_of_le {limit : Nat} (hsize : content.size ≤ limit) :
    readToString limit (.ok content) = match String.fromUTF8? content with
      | some source => .ok source
      | none => .error "stream did not contain valid UTF-8" := by
  have hall : content.extract 0 limit = content := by
    apply ByteArray.ext
    rw [ByteArray.data_extract]
    exact Array.extract_eq_self_of_le hsize
  show (match String.fromUTF8? (content.extract 0 limit) with
    | some source => Except.ok source
    | none => .error "stream did not contain valid UTF-8") = _
  rw [hall]

/-- A file that is priced is read whole. -/
lemma size_le_of_priced (hsize : content.size ≤ u64Max)
    (h : ledger.priced quoted specifier (min content.size u64Max) = .ok ()) :
    content.size ≤ saturatingAdd ledger.perSourceMax 1 := by
  rw [Nat.min_eq_left hsize] at h
  unfold priced at h
  obtain ⟨hper, -⟩ := ite_error_eq_ok.mp h
  rw [saturatingAdd]
  omega

/-- What taking a file in may come to: a recorded failure, or the file with its text. -/
inductive Takes (t : ProjectTree) (ledger : ResolverLedger) (path root : CanonicalPath)
    (content : ByteArray) : ResolverLedger × Option Resolved → Prop where
  | failed (failure : ResolverFailure) : Takes t ledger path root content (ledger.refuse failure)
  | taken {source : String} {ledger' : ResolverLedger}
      (htext : String.fromUTF8? content = some source)
      (hmodules : ledger'.resolvedModules = ledger.resolvedModules ∨
        ledger'.resolvedModules = (path, source) :: ledger.resolvedModules) :
      Takes t ledger path root content (ledger', some ⟨.file path root, source⟩)

lemma takes_load (hsize : content.size ≤ saturatingAdd ledger.perSourceMax 1) :
    Takes t ledger path root content
      (ledger.load quoted specifier path root (.ok (.ok content)) afterRead) := by
  unfold load
  dsimp only
  rw [readToString_of_le hsize]
  cases htext : String.fromUTF8? content with
  | none => exact .failed _
  | some source =>
    dsimp only
    split
    · exact .failed _
    · split
      · exact .failed _
      · exact .taken htext (.inr rfl)

lemma takes_take (hfile : t.node path = some (.file content)) (hholds : HoldsFiles t ledger) :
    Takes t ledger path root content
      (ledger.take quoted specifier path root content afterRead) := by
  unfold take
  split
  next source hheld =>
    obtain ⟨content', hfile', htext⟩ := hholds path source hheld
    rw [hfile, some.injEq, Node.file.injEq] at hfile'
    rw [← hfile'] at htext
    exact .taken htext (.inl rfl)
  next =>
    split
    · exact .failed _
    next hpriced => exact takes_load (size_le_of_priced (t.sizes path content hfile) hpriced)

lemma Takes.answer {answer : Resolved} (h : Takes t ledger path root content result)
    (hanswer : result.2 = some answer) :
    answer.origin = .file path root ∧ String.fromUTF8? content = some answer.source := by
  cases h with
  | failed failure => cases hanswer
  | taken htext hmodules =>
    cases hanswer
    exact ⟨rfl, htext⟩

lemma Takes.holds (h : Takes t ledger path root content result)
    (hfile : t.node path = some (.file content)) (hholds : HoldsFiles t ledger) :
    HoldsFiles t result.1 := by
  cases h with
  | failed failure => exact hholds
  | @taken source ledger' htext hmodules =>
    intro path' source' hheld
    rcases hmodules with hsame | hnew
    · rw [hsame] at hheld
      exact hholds path' source' hheld
    · rw [hnew, lookup_cons] at hheld
      split at hheld
      next hpath =>
        cases hheld
        exact ⟨content, by rw [eq_of_beq hpath, hfile], htext⟩
      next => exact hholds path' source' hheld

lemma take_admitted {entered : Moment} (hfile : t.node path = some (.file content))
    (htext : String.fromUTF8? content = some source) (hholds : HoldsFiles t ledger)
    (hadmits : ledger.Admits entered afterRead content.size) :
    (ledger.take quoted specifier path root content afterRead).2 =
      some ⟨.file path root, source⟩ := by
  unfold take
  split
  next source' hheld =>
    obtain ⟨content', hfile', htext'⟩ := hholds path source' hheld
    rw [hfile, some.injEq, Node.file.injEq] at hfile'
    rw [← hfile', htext, some.injEq] at htext'
    rw [htext']
  next =>
    have hper := hadmits.perSource
    have hmodules := hadmits.modules
    have haggregate := hadmits.aggregate
    have hpriced : ledger.priced quoted specifier (min content.size u64Max) = .ok () := by
      rw [Nat.min_eq_left hadmits.size_le, priced, if_neg (Nat.not_lt.mpr hper),
        if_neg (Nat.not_le.mpr hmodules), if_neg (Nat.not_lt.mpr haggregate)]
    have hsize := size_le_of_priced hadmits.size_le hpriced
    have hbytes : source.utf8ByteSize = content.size := by
      unfold String.fromUTF8? at htext
      obtain ⟨hvalid, htext⟩ := dite_none_right_eq_some.mp htext
      rw [← some.inj htext]
      rfl
    rw [hpriced]
    unfold load
    dsimp only
    rw [readToString_of_le hsize, htext]
    dsimp only
    rw [hadmits.afterRead]
    dsimp only
    rw [hbytes, if_neg (by omega)]

/-- A call on a tree that does not change. -/
def onTree (t : ProjectTree) (entered afterRead : Moment) : Surroundings :=
  ⟨entered, fun _ => t.fileSystem, afterRead⟩

variable {entered : Moment} {roots : List CanonicalPath}

/-- The resolver takes the first file that the roots have. -/
lemma resolveFile_tree (hholds : HoldsFiles t ledger) :
    (t.firstFile specifier roots = none ∧
        ledger.resolveFile quoted specifier (onTree t entered afterRead) roots = (ledger, none)) ∨
      ∃ path root content, t.firstFile specifier roots = some path ∧
        t.node path = some (.file content) ∧
        ledger.resolveFile quoted specifier (onTree t entered afterRead) roots =
          ledger.take quoted specifier path root content afterRead := by
  induction roots with
  | nil => exact .inl ⟨rfl, rfl⟩
  | cons root roots ih =>
    have hcanonicalize : t.fileSystem.canonicalize = t.canonicalize := rfl
    have hfirst : t.firstFile specifier (root :: roots) =
        (t.fileAt specifier root).or (t.firstFile specifier roots) := by
      rw [firstFile, List.findSome?_cons]
      cases t.fileAt specifier root <;> rfl
    -- a root without a file for the specifier leaves the turn to the next
    have hskip (hnone : t.fileAt specifier root = none)
        (hnext : ledger.resolveFile quoted specifier (onTree t entered afterRead) (root :: roots) =
          ledger.resolveFile quoted specifier (onTree t entered afterRead) roots) :
        (t.firstFile specifier (root :: roots) = none ∧
            ledger.resolveFile quoted specifier (onTree t entered afterRead) (root :: roots) =
              (ledger, none)) ∨
          ∃ path root' content, t.firstFile specifier (root :: roots) = some path ∧
            t.node path = some (.file content) ∧
            ledger.resolveFile quoted specifier (onTree t entered afterRead) (root :: roots) =
              ledger.take quoted specifier path root' content afterRead := by
      rw [hfirst, hnone, none_or, hnext]
      exact ih
    have hat : t.fileAt specifier root = (t.canonicalize (candidate root specifier)).filter
        fun p => root.isPrefixOf p && t.isFile p := rfl
    cases hcanon : t.canonicalize (candidate root specifier) with
    | none =>
      refine hskip (by rw [hat, hcanon]; rfl) ?_
      rw [resolveFile]
      dsimp only [onTree]
      rw [hcanonicalize, hcanon]
    | some path =>
      rw [hcanon] at hat
      by_cases hunder : root <+: path
      · have hstarts : root.isPrefixOf path = true := isPrefixOf_iff_prefix.mpr hunder
        cases hnode : t.node path with
        | none => exact absurd hnode (t.node_of_canonicalize hcanon)
        | some node =>
          cases node with
          | dir =>
            have hnotfile : t.isFile path = false :=
              isFile_of_isDir (FileTree.isDir_iff.mpr hnode)
            have hlookup : ledger.resolvedModules.lookup path = none := by
              by_contra hsome
              obtain ⟨source, hheld⟩ := ne_none_iff_exists'.mp hsome
              obtain ⟨content, hfile, -⟩ := hholds path source hheld
              rw [hnode] at hfile
              cases hfile
            refine hskip ?_ ?_
            · rw [hat]
              exact filter_some_neg (by rw [hnotfile, Bool.and_false])
            · rw [resolveFile]
              dsimp only [onTree]
              rw [hcanonicalize, hcanon]
              dsimp only
              rw [if_pos hunder, hlookup]
              dsimp only [fileSystem]
              rw [hnode]
              rfl
          | file content =>
            have hfile : t.isFile path = true := isFile_iff.mpr ⟨content, hnode⟩
            refine .inr ⟨path, root, content, ?_, hnode, ?_⟩
            · rw [hfirst, hat, filter_some_pos (by rw [hstarts, hfile]; rfl)]
              rfl
            · rw [resolveFile, take]
              dsimp only [onTree]
              rw [hcanonicalize, hcanon]
              dsimp only
              rw [if_pos hunder]
              cases ledger.resolvedModules.lookup path with
              | some source => rfl
              | none =>
                dsimp only [fileSystem]
                rw [hnode]
                rfl
      · have hstarts : root.isPrefixOf path = false := by
          rw [← Bool.not_eq_true, isPrefixOf_iff_prefix]
          exact hunder
        refine hskip ?_ ?_
        · rw [hat]
          exact filter_some_neg (by rw [hstarts, Bool.false_and])
        · rw [resolveFile]
          dsimp only [onTree]
          rw [hcanonicalize, hcanon]
          exact if_neg hunder

lemma resolveFile_holds (hholds : HoldsFiles t ledger) :
    HoldsFiles t
      (ledger.resolveFile quoted specifier (onTree t entered afterRead) roots).1 := by
  rcases resolveFile_tree hholds with ⟨-, hnone⟩ | ⟨path, root, content, -, hfile, htake⟩
  · rw [hnone]
    exact hholds
  · rw [htake]
    exact (takes_take hfile hholds).holds hfile hholds

lemma resolveBuiltin_modules :
    (ledger.resolveBuiltin quoted specifier source).1.resolvedModules = ledger.resolvedModules ∧
      ∀ answer, (ledger.resolveBuiltin quoted specifier source).2 = some answer →
        answer.origin = .builtin specifier := by
  unfold resolveBuiltin
  split
  · exact ⟨rfl, fun answer h => by cases h; rfl⟩
  · split
    · exact ⟨rfl, fun answer h => nomatch h⟩
    · split
      · exact ⟨rfl, fun answer h => nomatch h⟩
      · exact ⟨rfl, fun answer h => by cases h; rfl⟩

lemma resolve_holds (hholds : HoldsFiles t ledger) :
    HoldsFiles t
      (ledger.resolve quoted builtin roots specifier (onTree t entered afterRead)).1 := by
  unfold resolve
  split
  · exact hholds
  · split
    · exact hholds
    · split
      · intro path source hheld
        rw [resolveBuiltin_modules.1] at hheld
        exact hholds path source hheld
      · exact resolveFile_holds hholds

end ResolverLedger

/-- The tree is as it is when a resolver is made and when it is called. -/
def LedgerCall.OnTree (t : ProjectTree) : LedgerCall → Prop
  | .resolve canonicalize _ _ surroundings =>
    canonicalize = t.canonicalize ∧ surroundings.fileSystem = fun _ => t.fileSystem
  | _ => True

/-- What a ledger holds after any calls are files of the tree. -/
theorem run_holdsFiles {t : ProjectTree} {quoted : String → String}
    {builtin : String → Option String} {calls : List LedgerCall}
    (hcalls : ∀ call ∈ calls, call.OnTree t) {start : LedgerRun}
    (hstart : start.ledger.HoldsFiles t) :
    (run (LedgerRun.step quoted builtin) start calls).ledger.HoldsFiles t := by
  refine run_invariant_mem (P := fun reached : LedgerRun => reached.ledger.HoldsFiles t) ?_ hstart
  intro before call hcall hholds
  cases call with
  | chargeEntryBytes bytes =>
    show (before.ledger.chargeEntryBytes bytes).1.HoldsFiles t
    unfold chargeEntryBytes
    dsimp only
    split <;> exact hholds
  | resolve canonicalize roots specifier surroundings =>
    obtain ⟨entered, fileSystem, afterRead⟩ := surroundings
    obtain ⟨-, hsystem⟩ := hcalls _ hcall
    obtain rfl : fileSystem = fun _ => t.fileSystem := hsystem
    exact resolve_holds hholds
  | takeFailure => exact hholds

/-! ## Roots -/

namespace ProjectTree

variable {t : ProjectTree} {specifier : String}

/-- A root that is there twice has its turn once. -/
lemma firstFile_canonicalRoots {roots : List TreePath} (hroots : ∀ p ∈ roots, t.isDir p = true) :
    t.firstFile specifier (canonicalRoots t.canonicalize (roots.map ("" :: ·))) =
      t.firstFile specifier roots := by
  unfold canonicalRoots firstFile
  rw [foldl_map]
  -- from any roots that are there already
  suffices h : ∀ step : List CanonicalPath → TreePath → List CanonicalPath,
      (∀ canonical root, step canonical root =
        (t.canonicalize ("" :: root)).elim canonical fun path =>
          if path ∈ canonical then canonical else canonical ++ [path]) →
      ∀ held, (roots.foldl step held).findSome? (t.fileAt specifier) =
        (held ++ roots).findSome? (t.fileAt specifier) from
    h _ (fun _ root => by cases t.canonicalize ("" :: root) <;> rfl) []
  intro step hstep
  induction roots with
  | nil =>
    intro held
    rw [append_nil, foldl_nil]
  | cons root roots ih =>
    intro held
    have hdir := hroots root mem_cons_self
    have hnode := FileTree.isDir_iff.mp hdir
    have hnames := validName_of_node (p := root) (t := t) (by rw [hnode]; exact some_ne_none _)
    have hexists : t.exists? root = true := by
      rw [FileTree.exists?, hnode]
      rfl
    rw [foldl_cons, hstep, canonicalize_names hnames, if_pos hexists,
      ih fun p hp => hroots p (mem_cons_of_mem _ hp), elim_some]
    split
    next hmem =>
      -- it had its turn among those that are there
      rw [List.findSome?_append, List.findSome?_append, List.findSome?_cons]
      cases hheld : held.findSome? (t.fileAt specifier) with
      | some path => rfl
      | none =>
        rw [List.findSome?_eq_none_iff.mp hheld root hmem]
    next => rw [append_assoc, singleton_append]

end ProjectTree

/-! ## Listed files -/

/-- A listed file of a project whose name ends in `.qjs`, with its text. -/
structure CheckEntry (t : ProjectTree) where
  root : TreePath
  path : TreePath
  stem : String
  content : ByteArray
  source : String
  root_dir : t.isDir root = true
  under : root <+: path
  named : path.getLast? = some (stem ++ ".qjs")
  file : t.node path = some (.file content)
  text : String.fromUTF8? content = some source

namespace CheckEntry

variable {t : ProjectTree} (e : CheckEntry t)

/-- The root that is stripped. -/
def importRoot : TreePath :=
  if t.moduleRoot e.root <+: e.path then t.moduleRoot e.root else e.root

def relative : TreePath := e.path.drop e.importRoot.length

def specifier : String := specifierOf e.relative

/-- No name between the root and the file has a backslash. -/
def slashed : Bool := e.relative.all fun name => !(name.toList.contains '\\')

/-- No root that comes before that of the entry has a file of the same relative path. -/
def Unshadowed : Prop :=
  e.path.dropLast = e.importRoot ∨
    t.isFile (e.path.dropLast ++ e.relative) = false ∧
      (t.moduleRoot e.root = e.importRoot ∨
        t.isFile (t.moduleRoot e.root ++ e.relative) = false)

lemma isDir_moduleRoot : t.isDir (t.moduleRoot e.root) = true := by
  unfold moduleRoot
  dsimp only
  split
  next h => exact h
  next => exact e.root_dir

lemma isDir_importRoot : t.isDir e.importRoot = true := by
  unfold importRoot
  split
  · exact e.isDir_moduleRoot
  · exact e.root_dir

lemma importRoot_prefix : e.importRoot <+: e.path := by
  unfold importRoot
  split
  next h => exact h
  next => exact e.under

lemma importRoot_append : e.importRoot ++ e.relative = e.path := by
  obtain ⟨rest, hrest⟩ := e.importRoot_prefix
  rw [relative, ← hrest, drop_left]

/-- The file lies below its root. -/
lemma relative_eq : ∃ dirs, e.relative = dirs ++ [e.stem ++ ".qjs"] := by
  have hpath := e.importRoot_append
  have hne : e.relative ≠ [] := by
    intro hnil
    rw [hnil, append_nil] at hpath
    have hdir := FileTree.isDir_iff.mp e.isDir_importRoot
    rw [hpath, e.file] at hdir
    cases hdir
  have hlast : e.relative.getLast? = some (e.stem ++ ".qjs") := by
    rw [← e.named, ← hpath, List.getLast?_append_of_ne_nil _ hne]
  exact ⟨e.relative.dropLast, (dropLast_append_getLast? _ hlast).symm⟩

lemma validName_of_path : ∀ name ∈ e.path, validName name = true :=
  validName_of_node (by rw [e.file]; exact some_ne_none _)

lemma importerSpecifier_eq : t.importerSpecifier e.root e.path = some e.specifier := by
  have hdrop (front : TreePath) (h : front <+: e.path) :
      e.path.dropPrefix? front = some (e.path.drop front.length) := by
    obtain ⟨rest, hrest⟩ := h
    rw [← hrest, drop_left]
    exact List.dropPrefix?_eq_some_iff.mpr ⟨front, rfl, beq_self_eq_true _⟩
  unfold importerSpecifier
  by_cases hmodule : t.moduleRoot e.root <+: e.path
  · rw [hdrop _ hmodule, specifier, relative, importRoot, if_pos hmodule]
    rfl
  · have hnone : e.path.dropPrefix? (t.moduleRoot e.root) = none := by
      by_contra hsome
      obtain ⟨rest, hrest⟩ := ne_none_iff_exists'.mp hsome
      obtain ⟨front, hpath, hfront⟩ := List.dropPrefix?_eq_some_iff.mp hrest
      exact hmodule ⟨rest, by rw [hpath, eq_of_beq hfront]⟩
    rw [hnone, none_or, hdrop _ e.under, specifier, relative, importRoot, if_neg hmodule]
    rfl

lemma isDir_checkRoots : ∀ p ∈ t.checkRoots e.root e.path, t.isDir p = true := by
  have hparent : t.isDir e.path.dropLast = true := by
    obtain ⟨dirs, hdirs⟩ := e.relative_eq
    have hpath := e.importRoot_append
    rw [hdirs, ← append_assoc] at hpath
    have hnode : t.node (e.importRoot ++ dirs ++ [e.stem ++ ".qjs"]) ≠ none := by
      rw [hpath, e.file]
      exact some_ne_none _
    rw [← hpath, dropLast_concat, FileTree.isDir_iff]
    exact t.parent_dir _ _ hnode
  intro p hp
  simp only [checkRoots, mem_cons, not_mem_nil, or_false] at hp
  rcases hp with rfl | rfl | rfl
  · exact hparent
  · exact e.isDir_moduleRoot
  · exact e.root_dir

/-- Where no name has a backslash, the file that is found first is the listed one if its name is
plain and no earlier root has the same relative path. -/
lemma firstFile_iff (h : e.slashed = true) :
    t.firstFile e.specifier (t.checkRoots e.root e.path) = some e.path ↔
      PlainName (e.stem ++ ".qjs") ∧ e.Unshadowed := by
  obtain ⟨dirs, hdirs⟩ := e.relative_eq
  have hpath := e.importRoot_append
  have hnames : ∀ n ∈ dirs ++ [e.stem ++ ".qjs"], validName n = true := by
    intro n hn
    rw [← hdirs] at hn
    exact e.validName_of_path n (mem_of_mem_drop hn)
  have hslash : ∀ n ∈ dirs ++ [e.stem ++ ".qjs"], '\\' ∉ n.toList := by
    intro n hn
    rw [← hdirs] at hn
    simpa using all_eq_true.mp h n hn
  have hspecifier : e.specifier = specifierOf (dirs ++ [e.stem ++ ".qjs"]) := by
    rw [specifier, hdirs]
  have hplain (hfirst : t.firstFile e.specifier (t.checkRoots e.root e.path) = some e.path) :
      PlainName (e.stem ++ ".qjs") := by
    obtain ⟨root, -, hat⟩ := exists_of_findSome?_eq_some hfirst
    rw [hspecifier] at hat
    exact plain_of_fileAt hnames hslash e.named hat
  suffices hiff : PlainName (e.stem ++ ".qjs") →
      (t.firstFile e.specifier (t.checkRoots e.root e.path) = some e.path ↔ e.Unshadowed) from
    ⟨fun hfirst => ⟨hplain hfirst, (hiff (hplain hfirst)).mp hfirst⟩,
      fun ⟨hname, hclear⟩ => (hiff hname).mpr hclear⟩
  intro hname
  -- each root has the same relative path, or nothing
  have hat (p : TreePath) (hp : p ∈ t.checkRoots e.root e.path) : t.fileAt e.specifier p =
      if t.isFile (p ++ e.relative) then some (p ++ e.relative) else none := by
    have hnode := FileTree.isDir_iff.mp (e.isDir_checkRoots p hp)
    rw [hspecifier, hdirs]
    exact fileAt_plain
      (validName_of_node (by rw [hnode]; exact some_ne_none _)) hnames hslash
      hname
  have hsame (p : TreePath) : some (p ++ e.relative) = some e.path ↔ p = e.importRoot := by
    rw [some.injEq, ← hpath, append_left_inj]
  have hfile : t.isFile (e.importRoot ++ e.relative) = true := by
    rw [hpath]
    exact isFile_iff.mpr ⟨e.content, e.file⟩
  have hroot : t.moduleRoot e.root = e.importRoot ∨ e.root = e.importRoot := by
    unfold importRoot
    split
    · exact .inl rfl
    · exact .inr rfl
  unfold firstFile Unshadowed
  unfold checkRoots at hat ⊢
  rw [List.findSome?_cons, List.findSome?_cons, List.findSome?_cons, hat _ (by simp),
    hat _ (by simp), hat _ (by simp)]
  by_cases hparent : t.isFile (e.path.dropLast ++ e.relative) = true
  · -- the directory of the entry answers
    rw [if_pos hparent, hparent]
    simp only [hsame, Bool.true_eq_false, false_and, or_false]
  · have hother : e.path.dropLast ≠ e.importRoot := fun heq => hparent (by rw [heq, hfile])
    rw [if_neg hparent]
    by_cases hmodule : t.isFile (t.moduleRoot e.root ++ e.relative) = true
    · rw [if_pos hmodule]
      simp only [hsame, hother, hparent, hmodule, Bool.true_eq_false, or_false, false_or,
        true_and]
    · have hbelow : e.root = e.importRoot := by
        refine hroot.resolve_left fun heq => hmodule ?_
        rw [heq, hfile]
      have hlast : t.isFile (e.root ++ e.relative) = true := by rw [hbelow, hfile]
      rw [if_neg hmodule, if_pos hlast]
      rw [Bool.not_eq_true] at hparent hmodule
      exact ⟨fun _ => .inr ⟨hparent, .inr hmodule⟩, fun _ => by rw [hbelow, hpath]⟩

end CheckEntry

/-- What the resolver answers for the specifier of a listed file. -/
lemma CheckEntry.answered_iff {quoted : String → String} {builtin : String → Option String}
    {t : ProjectTree} (e : CheckEntry t) {ledger : ResolverLedger} {entered afterRead : Moment}
    (hholds : ledger.HoldsFiles t) (hadmits : ledger.Admits entered afterRead e.content.size) :
    (∃ root, (ledger.resolve quoted builtin
        (canonicalRoots t.canonicalize
          ((t.checkRoots e.root e.path).map ("" :: ·))) e.specifier
        (onTree t entered afterRead)).2 = some ⟨.file e.path root, e.source⟩) ↔
      builtin e.specifier = none ∧
        t.firstFile e.specifier (t.checkRoots e.root e.path) = some e.path := by
  rw [← firstFile_canonicalRoots e.isDir_checkRoots]
  generalize canonicalRoots t.canonicalize
    ((t.checkRoots e.root e.path).map ("" :: ·)) = roots
  unfold resolve
  rw [hadmits.failure, if_neg (by exact Bool.false_ne_true)]
  dsimp only [onTree]
  rw [hadmits.entered]
  dsimp only
  cases hbuiltin : builtin e.specifier with
  | some source =>
    -- a built-in module is answered in its place
    refine ⟨fun ⟨root, h⟩ => ?_, fun h => nomatch h.1⟩
    have horigin := resolveBuiltin_modules.2 _ h
    cases horigin
  | none =>
    have hfound := @ResolverLedger.resolveFile_tree t quoted ledger e.specifier afterRead entered
      roots hholds
    rcases hfound with ⟨hfirst, hnone⟩ | ⟨path, root, content, hfirst, hfile, htake⟩
    · -- no root has a file
      show (∃ root, (ledger.resolveFile quoted e.specifier
        (onTree t entered afterRead) roots).2 = _) ↔ _
      rw [hnone, hfirst]
      simp
    · show (∃ root, (ledger.resolveFile quoted e.specifier
        (onTree t entered afterRead) roots).2 = _) ↔ _
      rw [htake, hfirst, some.injEq]
      refine ⟨fun ⟨root', h⟩ => ⟨rfl, ?_⟩, fun ⟨_, hpath⟩ => ⟨root, ?_⟩⟩
      · have horigin := ((takes_take hfile hholds).answer h).1
        exact (Origin.file.inj horigin).1.symm
      · subst hpath
        obtain rfl : content = e.content := by
          rw [e.file, some.injEq, Node.file.injEq] at hfile
          exact hfile.symm
        exact take_admitted hfile e.text hholds hadmits

lemma holdsFiles_start (t : ProjectTree) (config : ResolverLedgerConfig) :
    (LedgerRun.start config).ledger.HoldsFiles t := by
  intro path source h
  cases h

lemma mem_of_lookup {node : Node ByteArray} (h : nodes.lookup p = some node) :
    (p, node) ∈ nodes := by
  obtain ⟨front, back, rfl, -⟩ := lookup_eq_some_iff.mp h
  exact mem_append_right front mem_cons_self

/-- A node that is listed lies in a directory that is listed. -/
lemma parent_of_nodes (hnodes : (nodes.all fun (p, _) => p.isEmpty ||
      ((nodes.lookup p.dropLast).any Node.isDir && p.getLast?.all validName)) = true)
    {name : String} (h : nodes.lookup (p ++ [name]) ≠ none) :
    nodes.lookup p = some .dir ∧ validName name = true := by
  obtain ⟨node, hnode⟩ := ne_none_iff_exists'.mp h
  have hcheck := all_eq_true.mp hnodes _ (mem_of_lookup hnode)
  have hboth : (nodes.lookup p).any Node.isDir = true ∧ validName name = true := by
    simpa using hcheck
  refine ⟨?_, hboth.2⟩
  cases hlookup : nodes.lookup p with
  | none =>
    rw [hlookup] at hboth
    exact absurd hboth.1 Bool.false_ne_true
  | some above =>
    rw [hlookup] at hboth
    cases above with
    | dir => rfl
    | file content => exact absurd hboth.1 Bool.false_ne_true

/-- The tree of these nodes. -/
def ProjectTree.ofNodes (nodes : List (TreePath × Node ByteArray))
    (htop : nodes.lookup [] = some .dir)
    (hnodes : (nodes.all fun (p, _) => p.isEmpty ||
      ((nodes.lookup p.dropLast).any Node.isDir && p.getLast?.all validName)) = true)
    (hsizes : (nodes.all fun (_, node) => match node with
      | .file content => content.size ≤ u64Max
      | .dir => true) = true) : ProjectTree where
  node p := nodes.lookup p
  top_dir := htop
  parent_dir p name h := (parent_of_nodes hnodes h).1
  names p name h := (parent_of_nodes hnodes h).2
  sizes p content h := by
    have hcheck := all_eq_true.mp hsizes _ (mem_of_lookup h)
    exact of_decide_eq_true hcheck

/-- A library, and another one at the same path under the directory of the first. -/
def shadowedTree : ProjectTree :=
  .ofNodes [([], .dir), (["p"], .dir), (["p", "lib"], .dir), (["p", "lib", "lib"], .dir),
    (["p", "lib", "value.qjs"], .file "export let a;".toByteArray),
    (["p", "lib", "lib", "value.qjs"], .file "export let b;".toByteArray)]
    (by decide) (by decide) (by decide)

def shadowedEntry : CheckEntry shadowedTree where
  root := ["p"]
  path := ["p", "lib", "value.qjs"]
  stem := "value"
  content := "export let a;".toByteArray
  source := "export let a;"
  root_dir := by decide
  under := by decide
  named := by decide
  file := by decide
  text := by decide

/-- Limits that these files do not reach. -/
def roomyConfig : ResolverLedgerConfig where
  label := "check-many"
  deadline := 10
  perSourceMax := 1000
  aggregateSourceMax := 1000
  entryBytes := 0
  importedModules := 0
  cancellation := false
  modulesMax := importModulesMax
  entryBytes_le := by decide

lemma roomyConfig_admits {size : Nat} (h : size ≤ 1000) :
    (LedgerRun.start roomyConfig).ledger.Admits ⟨0, false⟩ ⟨0, false⟩ size where
  failure := rfl
  entered := rfl
  afterRead := rfl
  size_le := Nat.le_trans h (by decide)
  perSource := h
  modules := by decide
  aggregate := by
    have hsum : saturatingAdd 0 size ≤ 0 + size := Nat.min_le_left _ _
    show saturatingAdd 0 size ≤ 1000
    omega

/-- The same file in a project whose root is its directory. -/
def directEntry : CheckEntry shadowedTree :=
  { shadowedEntry with
    root := ["p", "lib"]
    root_dir := by decide
    under := by decide }

end Agenterm.Qjswasm
