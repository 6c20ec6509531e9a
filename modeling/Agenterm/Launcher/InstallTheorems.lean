import Agenterm.Lib.Throughout
import Agenterm.Launcher.Install

/-!
# The way back to the version before

The calls on a root are followed with what they came to: the versions that were committed and the
ones that were current. While the pointer remembers the version that was current last among those
different from the current one (`Standing`), a rollback goes back to it. Every call with proper
arguments keeps that (`Standing.step`), but for an activation of the version that is current
already, which forgets the way back (`kept_iff`, `way_back_kept_iff`).
-/

namespace Agenterm.Launcher

open List Option

open Lib (FileTree TreePath PlainName Throughout)

variable {β : Type} {root : TreePath}

/-- A name of a directory of the root that is not taken by the pointer or its temporary file. -/
structure VersionName (v : String) : Prop where
  plain : PlainName v
  not_pointer : v ≠ POINTER
  not_tmp : v ≠ POINTER_TMP

/-- The arguments of a call name versions, and what is moved into place is neither the pointer nor
part of a version that is there already. -/
def Proper (root : TreePath) (s : Session β) : Call β → Prop
  | .commitVersion _ staged v =>
    VersionName v ∧ staged ≠ root ++ [POINTER] ∧ ∀ w ∈ s.versions, ¬ root ++ [w] <+: staged
  | .activate _ v => VersionName v
  | .rollback _ _ => True

instance decidableVersionName (v : String) : Decidable (VersionName v) :=
  decidable_of_iff (PlainName v ∧ v ≠ POINTER ∧ v ≠ POINTER_TMP)
    ⟨fun h => ⟨h.1, h.2.1, h.2.2⟩, fun h => ⟨h.plain, h.not_pointer, h.not_tmp⟩⟩

instance decidableProper (s : Session β) : (c : Call β) → Decidable (Proper root s c)
  | .commitVersion _ staged v => inferInstanceAs (Decidable (VersionName v ∧
      staged ≠ root ++ [POINTER] ∧ ∀ w ∈ s.versions, ¬ root ++ [w] <+: staged))
  | .activate _ v => inferInstanceAs (Decidable (VersionName v))
  | .rollback _ _ => inferInstanceAs (Decidable True)

/-- Nothing gets in the way of an activation. -/
structure Io.Activates (io : Io β) : Prop where
  reads : io.readFails = false
  writes : io.writeFails = none
  renames : io.renameFails = false

/-- The current version is activated once more, and there is a way back to lose. -/
def Reactivates (s : Session β) : Call β → Prop
  | .activate io v => io.Activates ∧ s.history.head? = some v ∧ (lastOther s.history).isSome
  | _ => False

/-! ## Single calls -/

variable {c : Call β} {history : List String} {io : Io β} {p : Pointer} {staged : TreePath}
  {t t' : Disk β} {v w : String}

lemma not_child_below (root : TreePath) (h : v ≠ w) (q : TreePath) :
    ¬ root ++ [v] <+: root ++ [w] ++ q := by
  rw [append_assoc, prefix_append_right_inj]
  intro hpre
  rw [singleton_append, cons_prefix_cons] at hpre
  exact h hpre.1

lemma not_child_below_root : ¬ root ++ [v] <+: root := by
  intro hpre
  have hlen := hpre.length_le
  rw [length_append, length_singleton] at hlen
  omega

/-- A path that is not above the root, nor at or below something in it, is none of a front part. -/
lemma prefix_child {q : TreePath} (hpre : staged <+: root ++ [w] ++ q) :
    staged <+: root ∨ root ++ [w] <+: staged := by
  rcases prefix_or_prefix_of_prefix hpre (prefix_append ..) with h | h
  · rcases prefix_concat_iff.mp h with rfl | h
    · exact .inr prefix_rfl
    · exact .inl h
  · exact .inr h

/-- Committing a version leaves everything in the root as it was, but for the version itself and
what is moved to its place. -/
lemma commitVersion_keeps (io : Io β) (hv : VersionName v)
    (hw : t.node (root ++ [w]) ≠ none ∨ w ≠ v)
    (hstaged : root ++ [w] <+: staged → staged ≠ root ++ [w] ∧ t.node (root ++ [w]) ≠ some .dir)
    (q : TreePath) :
    (commitVersion root io staged v t).2.node (root ++ [w] ++ q) = t.node (root ++ [w] ++ q) := by
  have hdeep : ∀ made, t.createDirAll root = some made →
      made.node (root ++ [w] ++ q) = t.node (root ++ [w] ++ q) := by
    intro made hmade
    refine FileTree.createDirAll_keeps hmade (.inr fun hpre => ?_)
    exact not_child_below_root ((prefix_append ..).trans hpre)
  have hplace : ∀ made, t.createDirAll root = some made →
      made.node (root ++ [w]) = t.node (root ++ [w]) :=
    fun made hmade => FileTree.createDirAll_keeps hmade (.inr not_child_below_root)
  unfold commitVersion
  split
  · rfl
  · split
    · rfl
    · rename_i made hmade
      rw [TreePath.join_plain root hv.plain]
      dsimp only
      split
      · exact hdeep made hmade
      · rename_i hexists
        split
        · exact hdeep made hmade
        · split
          · exact hdeep made hmade
          · rename_i t' hrename
            -- the place was free, so it is another name
            have hne : v ≠ w := by
              rintro rfl
              rcases hw with hw | hw
              · rw [← hplace made hmade] at hw
                exact hexists (isSome_iff_ne_none.mpr hw)
              · exact hw rfl
            rw [renameTo, List.getLast?_concat, dropLast_concat] at hrename
            obtain ⟨⟨node, hnode, -⟩, -, hnot, -, -⟩ := FileTree.rename_spec hrename
            rw [FileTree.rename_other hrename (not_child_below root hne q), hdeep made hmade]
            intro hpre
            rcases prefix_child hpre with h | h
            · exact hnot (h.trans (prefix_append ..))
            · -- what is moved is there, so it does not lie below a file
              obtain ⟨hother, hfile⟩ := hstaged h
              obtain ⟨r, rfl⟩ := h
              rw [← hplace made hmade] at hfile
              rw [made.node_append_eq_none (fun hnil => hother (by rw [hnil, append_nil]))
                hfile] at hnode
              cases hnode

/-- A version that was committed is there. -/
lemma commitVersion_ok {dest : TreePath} (hv : VersionName v)
    (h : commitVersion root io staged v t = (.ok dest, t')) : t'.node (root ++ [v]) ≠ none := by
  unfold commitVersion at h
  split at h
  · cases h
  · split at h
    · cases h
    · rw [TreePath.join_plain root hv.plain] at h
      dsimp only at h
      split at h
      · rename_i hexists
        cases h
        exact isSome_iff_ne_none.mp hexists
      · split at h
        · cases h
        · split at h
          · cases h
          · rename_i moved hrename
            cases h
            rw [renameTo, List.getLast?_concat, dropLast_concat] at hrename
            obtain ⟨⟨node, hnode, -⟩, -, -, hat, -⟩ := FileTree.rename_spec hrename
            have hplace := hat []
            rw [append_nil, append_nil, hnode] at hplace
            rw [hplace]
            simp

/-- The directory that a version goes to is not the temporary file, so that this does not become a
directory. -/
lemma commitVersion_tmp (hv : VersionName v) (htmp : t.node (root ++ [POINTER_TMP]) ≠ some .dir) :
    (commitVersion root io staged v t).2.node (root ++ [POINTER_TMP]) ≠ some .dir := by
  by_cases hstaged : root ++ [POINTER_TMP] <+: staged
  · unfold commitVersion
    split
    · exact htmp
    · split
      · exact htmp
      · rename_i made hmade
        have hmade' : made.node (root ++ [POINTER_TMP]) ≠ some .dir := by
          rwa [FileTree.createDirAll_keeps hmade (.inr not_child_below_root)]
        rw [TreePath.join_plain root hv.plain]
        dsimp only
        split
        · exact hmade'
        · split
          · exact hmade'
          · split
            · exact hmade'
            · rename_i t' hrename
              rw [renameTo, List.getLast?_concat, dropLast_concat] at hrename
              have hother := (FileTree.rename_spec hrename).2.2.2.2 (root ++ [POINTER_TMP])
                (by simpa using not_child_below root hv.not_tmp [])
              rw [hother]
              split
              · simp
              · exact hmade'
  · have hkeeps := commitVersion_keeps (t := t) io hv
      (.inr hv.not_tmp.symm) (fun h => absurd h hstaged) []
    rw [append_nil] at hkeeps
    rwa [hkeeps]

/-- Writing the temporary file touches nothing else, and leaves no directory there. -/
lemma writeTmp_spec {r : Except InstallError Unit} (h : writeTmp root io p t = (r, t')) :
    (∀ q, q ≠ root ++ [POINTER_TMP] → t'.node q = t.node q) ∧
      (t.node (root ++ [POINTER_TMP]) ≠ some .dir →
        t'.node (root ++ [POINTER_TMP]) ≠ some .dir) ∧
      (r = .ok () → t'.node (root ++ [POINTER_TMP]) = some (.file (.pointer p))) := by
  unfold writeTmp at h
  split at h
  · rename_i torn _
    cases h
    cases hleft : torn.bind fun content => t.write root POINTER_TMP content with
    | none => exact ⟨fun q _ => rfl, id, fun hr => by cases hr⟩
    | some left =>
      obtain ⟨content, -, hwrite⟩ := bind_eq_some_iff.mp hleft
      refine ⟨fun q hq => FileTree.write_other hwrite hq, fun _ => ?_, fun hr => by cases hr⟩
      rw [getD_some, (FileTree.write_spec hwrite).2.2]
      simp
  · split at h
    · cases h
      exact ⟨fun q _ => rfl, id, fun hr => by cases hr⟩
    · rename_i written hwrite
      cases h
      have hnew := (FileTree.write_spec hwrite).2.2
      exact ⟨fun q hq => FileTree.write_other hwrite hq, fun _ => by rw [hnew]; simp,
        fun _ => hnew⟩

lemma pointer_ne_tmp : POINTER ≠ POINTER_TMP := by decide

/-- What writing the pointer does: it is there afterwards or the old one is, and what has another
name in the root is as it was. -/
lemma writePointer_spec {r : Except InstallError Unit} (h : writePointer root io p t = (r, t')) :
    (∀ w q, w ≠ POINTER → w ≠ POINTER_TMP →
        t'.node (root ++ [w] ++ q) = t.node (root ++ [w] ++ q)) ∧
      (t.node (root ++ [POINTER_TMP]) ≠ some .dir →
        t'.node (root ++ [POINTER_TMP]) ≠ some .dir) ∧
      (∀ e, r = .error e → t'.node (root ++ [POINTER]) = t.node (root ++ [POINTER])) ∧
      (r = .ok () → t'.node (root ++ [POINTER]) = some (.file (.pointer p))) := by
  have hpointer : root ++ [POINTER] ≠ root ++ [POINTER_TMP] := by simp [pointer_ne_tmp]
  have hother : ∀ {w : String} (q : TreePath), w ≠ POINTER_TMP →
      root ++ [w] ++ q ≠ root ++ [POINTER_TMP] := by
    intro w q hw heq
    refine not_child_below root hw [] ?_
    rw [append_nil, ← heq]
    exact prefix_append ..
  unfold writePointer at h
  split at h
  · rename_i e left hwrite
    cases h
    obtain ⟨hkeeps, htmp, -⟩ := writeTmp_spec hwrite
    exact ⟨fun w q _ hw => hkeeps _ (hother q hw), htmp, fun _ _ => hkeeps _ hpointer,
      fun hr => by cases hr⟩
  · rename_i written hwrite
    obtain ⟨hkeeps, htmp, hnew⟩ := writeTmp_spec hwrite
    split at h
    · cases h
      exact ⟨fun w q _ hw => hkeeps _ (hother q hw), htmp, fun _ _ => hkeeps _ hpointer,
        fun hr => by cases hr⟩
    · split at h
      · cases h
        exact ⟨fun w q _ hw => hkeeps _ (hother q hw), htmp, fun _ _ => hkeeps _ hpointer,
          fun hr => by cases hr⟩
      · rename_i renamed hrename
        cases h
        obtain ⟨-, -, hnot, hat, hrest⟩ := FileTree.rename_spec hrename
        refine ⟨fun w q hw hw' => ?_, fun _ => ?_, fun e he => (by cases he),
          fun _ => ?_⟩
        · rw [FileTree.rename_other hrename (not_child_below root hw.symm q)
            (not_child_below root hw'.symm q)]
          exact hkeeps _ (hother q hw')
        · -- the temporary file is gone
          rw [hrest _ (by simpa using not_child_below root pointer_ne_tmp []),
            if_pos prefix_rfl]
          simp
        · have hplace := hat []
          rw [append_nil, append_nil, hnew rfl] at hplace
          exact hplace

/-- With a directory to write in and no directory in the way, the pointer is written. -/
lemma writePointer_works (hio : io.Activates) (p : Pointer) (hroot : t.node root = some .dir)
    (htmp : t.node (root ++ [POINTER_TMP]) ≠ some .dir)
    (hpointer : t.node (root ++ [POINTER]) ≠ some .dir) :
    ∃ t', writePointer root io p t = (.ok (), t') := by
  obtain ⟨written, hwrite⟩ := FileTree.exists_write (.pointer p) hroot htmp
  have hspec := FileTree.write_spec hwrite
  have hkeeps : ∀ {q}, q ≠ root ++ [POINTER_TMP] → written.node q = t.node q :=
    FileTree.write_other hwrite
  have hne : root ++ [POINTER_TMP] ≠ root ++ [POINTER] := by simp [pointer_ne_tmp.symm]
  obtain ⟨renamed, hrename⟩ := FileTree.exists_rename_file hspec.2.2
    (by rw [hkeeps (by simp), hroot]) hne (by rwa [hkeeps hne.symm])
  refine ⟨renamed, ?_⟩
  rw [writePointer, writeTmp, hio.writes]
  dsimp only
  rw [hwrite]
  dsimp only
  rw [hio.renames, if_neg (by simp), hrename]

/-- The pointer that an activation writes over an old one. -/
def pointerAt (v : String) (old : Option Pointer) : Pointer where
  current := v
  previous := (old.map (·.current)).filter (· ≠ v)

/-- An activation fails and leaves the pointer, or writes the one for the version. -/
lemma activate_spec {r : Except InstallError Pointer} (hv : VersionName v)
    (h : activate root io v t = (r, t')) :
    (∀ w q, w ≠ POINTER → w ≠ POINTER_TMP →
        t'.node (root ++ [w] ++ q) = t.node (root ++ [w] ++ q)) ∧
      (t.node (root ++ [POINTER_TMP]) ≠ some .dir →
        t'.node (root ++ [POINTER_TMP]) ≠ some .dir) ∧
      (∀ e, r = .error e → t'.node (root ++ [POINTER]) = t.node (root ++ [POINTER])) ∧
      ∀ p, r = .ok p → t.node (root ++ [v]) = some .dir ∧
        t'.node (root ++ [POINTER]) = some (.file (.pointer p)) ∧
        ∃ old, readPointer root io.readFails t = .ok old ∧ p = pointerAt v old := by
  unfold activate at h
  rw [TreePath.join_plain root hv.plain] at h
  split at h
  · cases h
    exact ⟨fun w q _ _ => rfl, id, fun _ _ => rfl, fun p hp => by cases hp⟩
  · rename_i hdir
    split at h
    · cases h
      exact ⟨fun w q _ _ => rfl, id, fun _ _ => rfl, fun p hp => by cases hp⟩
    · rename_i old hread
      have hdir' : t.node (root ++ [v]) = some .dir := by
        rw [← FileTree.isDir_iff]
        simpa using hdir
      dsimp only at h
      split at h
      · rename_i e left hwrite
        cases h
        obtain ⟨hkeeps, htmp, hpointer, -⟩ := writePointer_spec hwrite
        exact ⟨hkeeps, htmp, fun _ _ => hpointer e rfl, fun p hp => by cases hp⟩
      · rename_i written hwrite
        cases h
        obtain ⟨hkeeps, htmp, -, hnew⟩ := writePointer_spec hwrite
        refine ⟨hkeeps, htmp, fun e he => (by cases he), fun p hp => ?_⟩
        rw [Except.ok.injEq] at hp
        subst hp
        exact ⟨hdir', hnew rfl, old, hread, rfl⟩

lemma writePointer_ok (h : writePointer root io p t = (.ok (), t')) :
    io.writeFails = none ∧ io.renameFails = false := by
  unfold writePointer writeTmp at h
  split at h
  · cases h
  · rename_i hwrite
    split at hwrite
    · cases hwrite
    · rename_i hwrites
      split at h
      · cases h
      · rename_i hrenames
        exact ⟨hwrites, by simpa using hrenames⟩

/-- An activation that succeeds met no failure of the file system. -/
lemma activates_of_ok (h : activate root io v t = (.ok p, t')) : io.Activates := by
  unfold activate at h
  split at h
  · cases h
  · split at h
    · cases h
    · rename_i old hread
      dsimp only at h
      split at h
      · cases h
      · rename_i hwrite
        obtain ⟨hwrites, hrenames⟩ := writePointer_ok hwrite
        refine ⟨?_, hwrites, hrenames⟩
        cases hfails : io.readFails with
        | false => rfl
        | true =>
          rw [readPointer, hfails, if_pos rfl] at hread
          cases hread

/-- A version whose directory is there is activated over a pointer that can be read. -/
lemma activate_works (hio : io.Activates) (hv : VersionName v) (old : Option Pointer)
    (hdir : t.node (root ++ [v]) = some .dir) (htmp : t.node (root ++ [POINTER_TMP]) ≠ some .dir)
    (hpointer : t.node (root ++ [POINTER]) = old.map fun p => .file (.pointer p)) :
    ∃ t', activate root io v t = (.ok (pointerAt v old), t') := by
  have hroot : t.node root = some .dir := t.dir_of_prefix (prefix_append ..) hdir
  have hread : readPointer root io.readFails t = .ok old := by
    rw [readPointer, hio.reads, if_neg (by simp), hpointer]
    cases old <;> rfl
  obtain ⟨t', hwrite⟩ := writePointer_works hio (pointerAt v old) hroot htmp
    (by rw [hpointer]; cases old <;> simp)
  refine ⟨t', ?_⟩
  rw [activate, TreePath.join_plain root hv.plain, FileTree.isDir_iff.mpr hdir,
    if_neg (by simp), hread]
  dsimp only
  rw [pointerAt] at hwrite
  rw [hwrite]
  rfl

/-! ## Runs -/

/-- The pointer stands for what happened on the root: it names the version that is current and the
one that was current last before a different one, and the versions are there. -/
structure Standing (root : TreePath) (s : Session β) : Prop where
  names : ∀ v ∈ s.versions, VersionName v
  present : ∀ v ∈ s.versions, s.disk.node (root ++ [v]) ≠ none
  noted : ∀ v ∈ s.history, v ∈ s.versions
  directories : ∀ v ∈ s.history, s.disk.node (root ++ [v]) = some .dir
  tmp_file : s.disk.node (root ++ [POINTER_TMP]) ≠ some .dir
  pointer : s.disk.node (root ++ [POINTER]) =
    s.history.head?.map fun v => .file (.pointer ⟨v, lastOther s.history⟩)

/-- What a call on a root is to keep. -/
structure Kept (root : TreePath) (s : Session β) (c : Call β) : Prop where
  /-- The pointer names an installed version after it was switched. -/
  installed : ∀ p, (c.answer root s.disk).1 = .ok (.pointer p) →
    (c.answer root s.disk).2.node (root ++ [p.current]) = some .dir ∧
      (c.answer root s.disk).2.node (root ++ [POINTER]) = some (.file (.pointer p))
  /-- Nothing in the directory of a version changes. -/
  untouched : ∀ v ∈ s.versions, ∀ q,
    (c.answer root s.disk).2.node (root ++ [v] ++ q) = s.disk.node (root ++ [v] ++ q)
  /-- A failing call leaves the pointer as it was. -/
  failed : ∀ e, (c.answer root s.disk).1 = .error e →
    (c.answer root s.disk).2.node (root ++ [POINTER]) = s.disk.node (root ++ [POINTER])
  /-- Once different versions were current, there is a way back. -/
  way_back : ∀ v ∈ (s.step root c).history, ∀ w ∈ (s.step root c).history, v ≠ w →
    ∃ p t', rollback root false Io.works (s.step root c).disk = (.ok p, t') ∧
      lastOther (s.step root c).history = some p.current

lemma lastOther_cons (v : String) (history : List String) :
    lastOther (v :: history) = history.find? (· ≠ v) := rfl

/-- An activation that follows the pointer writes down the way back. -/
lemma pointerAt_history (hnew : history.head? = some v → lastOther history = none) :
    pointerAt v (history.head?.map fun current => ⟨current, lastOther history⟩) =
      ⟨v, lastOther (v :: history)⟩ := by
  rw [lastOther_cons, pointerAt, Pointer.mk.injEq]
  refine ⟨rfl, ?_⟩
  cases history with
  | nil => rfl
  | cons current earlier =>
    rw [List.head?_cons, map_some, map_some]
    by_cases hv : current = v
    · subst hv
      have hnone := hnew rfl
      rw [lastOther_cons] at hnone
      rw [List.find?_cons_of_neg (by simp), hnone]
      simp
    · rw [List.find?_cons_of_pos (by simpa using hv)]
      simp [Option.filter, hv]

lemma lastOther_mem (h : lastOther history = some v) : v ∈ history ∧ history.head? ≠ some v := by
  cases history with
  | nil => cases h
  | cons current earlier =>
    rw [lastOther_cons] at h
    have hne := List.find?_some h
    refine ⟨mem_cons_of_mem _ (mem_of_find?_eq_some h), fun hhead => ?_⟩
    rw [List.head?_cons, some.injEq] at hhead
    simp [hhead] at hne

/-- Two different versions have been current, so one differs from the one that is. -/
lemma exists_lastOther (hv : v ∈ history) (hw : w ∈ history) (hne : v ≠ w) :
    ∃ u, lastOther history = some u := by
  cases history with
  | nil => cases hv
  | cons current earlier =>
    rw [lastOther_cons]
    by_contra hnone
    have hall : earlier.find? (· ≠ current) = none := by
      cases hfind : earlier.find? (· ≠ current) with
      | none => rfl
      | some u => exact absurd ⟨u, hfind⟩ hnone
    have hsame : ∀ u ∈ current :: earlier, u = current := by
      intro u hu
      rcases mem_cons.mp hu with rfl | hu
      · rfl
      · simpa using List.find?_eq_none.mp hall u hu
    exact hne ((hsame v hv).trans (hsame w hw).symm)

/-- The session after an activation came to this. -/
def Session.switched (s : Session β) (r : Except InstallError Pointer) (t : Disk β) : Session β :=
  match r with
  | .ok p => ⟨t, p.current :: s.versions, p.current :: s.history⟩
  | .error _ => { s with disk := t }

lemma step_activate (s : Session β) (io : Io β) (v : String) :
    s.step root (.activate io v) =
      s.switched (activate root io v s.disk).1 (activate root io v s.disk).2 := by
  unfold Session.step Call.answer Call.note Session.switched
  dsimp only
  cases (activate root io v s.disk).1 <;> rfl

lemma step_commitVersion (s : Session β) (io : Io β) (staged : TreePath) (v : String) :
    s.step root (.commitVersion io staged v) = {
      disk := (commitVersion root io staged v s.disk).2
      versions :=
        if (commitVersion root io staged v s.disk).1.isOk then v :: s.versions else s.versions
      history := s.history } := by
  unfold Session.step Call.answer Call.note
  dsimp only
  cases (commitVersion root io staged v s.disk).1 <;> rfl

lemma step_rollback (s : Session β) (readFails : Bool) (io : Io β) :
    s.step root (.rollback readFails io) =
      s.switched (rollback root readFails io s.disk).1 (rollback root readFails io s.disk).2 := by
  unfold Session.step Call.answer Call.note Session.switched
  dsimp only
  cases (rollback root readFails io s.disk).1 <;> rfl

namespace Standing

variable {s : Session β}

lemma read (h : Standing root s) :
    readPointer root false s.disk =
      .ok (s.history.head?.map fun v => ⟨v, lastOther s.history⟩) := by
  rw [readPointer, if_neg (by simp), h.pointer]
  cases s.history.head? <;> rfl

/-- What a rollback comes to: it cannot read the pointer, has nowhere to go, or activates the
version that was current before. -/
lemma rollback_eq (h : Standing root s) (readFails : Bool) (io : Io β) :
    (∃ e, rollback root readFails io s.disk = (.error e, s.disk)) ∨
      ∃ w, lastOther s.history = some w ∧
        rollback root readFails io s.disk = activate root io w s.disk := by
  cases readFails with
  | true => exact .inl ⟨.io, rfl⟩
  | false =>
    unfold rollback
    rw [h.read]
    cases hhistory : s.history with
    | nil => exact .inl ⟨_, rfl⟩
    | cons current earlier =>
      cases hother : lastOther (current :: earlier) with
      | none =>
        refine .inl ⟨.notFound "no previous version", ?_⟩
        simp
      | some w =>
        refine .inr ⟨w, rfl, ?_⟩
        simp

/-- Moving on to a version keeps the standing, unless it is current already and there is another
one to remember. -/
lemma switched (h : Standing root s) (hv : VersionName v)
    (hnew : io.Activates → s.history.head? = some v → lastOther s.history = none)
    {r : Except InstallError Pointer} (ht : activate root io v s.disk = (r, t)) :
    Standing root (s.switched r t) := by
  obtain ⟨hkeeps, htmp, hfailed, hdone⟩ := activate_spec hv ht
  have hplace : ∀ w, VersionName w → t.node (root ++ [w]) = s.disk.node (root ++ [w]) := by
    intro w hw
    have hsame := hkeeps w [] hw.not_pointer hw.not_tmp
    rwa [append_nil] at hsame
  have hpresent : ∀ w ∈ s.versions, t.node (root ++ [w]) ≠ none := by
    intro w hw
    rw [hplace w (h.names w hw)]
    exact h.present w hw
  have hdirs : ∀ w ∈ s.history, t.node (root ++ [w]) = some .dir := by
    intro w hw
    rw [hplace w (h.names w (h.noted w hw))]
    exact h.directories w hw
  cases r with
  | error e =>
    exact {
      names := h.names
      present := hpresent
      noted := h.noted
      directories := hdirs
      tmp_file := htmp h.tmp_file
      pointer := (hfailed e rfl).trans h.pointer }
  | ok p =>
    have hio : io.Activates := activates_of_ok ht
    obtain ⟨hdir, hpointer, old, hread, rfl⟩ := hdone p rfl
    have hold : old = s.history.head?.map fun u => ⟨u, lastOther s.history⟩ := by
      rw [hio.reads, h.read, Except.ok.injEq] at hread
      exact hread.symm
    have hdirv : t.node (root ++ [v]) = some .dir := (hplace v hv).trans hdir
    refine {
      names := fun w hw => ?_
      present := fun w hw => ?_
      noted := fun w hw => ?_
      directories := fun w hw => ?_
      tmp_file := htmp h.tmp_file
      pointer := ?_ }
    · rcases mem_cons.mp hw with rfl | hw
      · exact hv
      · exact h.names w hw
    · rcases mem_cons.mp hw with rfl | hw
      · change t.node (root ++ [(pointerAt _ old).current]) ≠ none
        rw [pointerAt, hdirv]
        simp
      · exact hpresent w hw
    · rcases mem_cons.mp hw with rfl | hw
      · exact mem_cons_self
      · exact mem_cons_of_mem _ (h.noted w hw)
    · rcases mem_cons.mp hw with rfl | hw
      · exact hdirv
      · exact hdirs w hw
    · change t.node (root ++ [POINTER]) = _
      rw [hpointer, hold, pointerAt_history (hnew hio)]
      rfl

lemma commit_untouched (h : Standing root s) (hc : Proper root s (.commitVersion io staged v))
    (hw : w ∈ s.versions) (q : TreePath) :
    (commitVersion root io staged v s.disk).2.node (root ++ [w] ++ q) =
      s.disk.node (root ++ [w] ++ q) :=
  commitVersion_keeps io hc.1 (.inl (h.present w hw)) (fun hpre => absurd hpre (hc.2.2 w hw)) q

lemma commit_pointer (h : Standing root s) (hc : Proper root s (.commitVersion io staged v)) :
    (commitVersion root io staged v s.disk).2.node (root ++ [POINTER]) =
      s.disk.node (root ++ [POINTER]) := by
  have hfile : s.disk.node (root ++ [POINTER]) ≠ some .dir := by
    rw [h.pointer]
    cases s.history.head? <;> simp
  have hsame := commitVersion_keeps io hc.1 (.inr hc.1.not_pointer.symm)
    (fun _ => ⟨hc.2.1, hfile⟩) []
  rwa [append_nil] at hsame

/-- Committing a version keeps the standing: the directories that are there are not touched. -/
lemma committed (h : Standing root s) (hc : Proper root s (.commitVersion io staged v)) :
    Standing root (s.step root (.commitVersion io staged v)) := by
  have hplace : ∀ w ∈ s.versions, (commitVersion root io staged v s.disk).2.node (root ++ [w]) =
      s.disk.node (root ++ [w]) := by
    intro w hw
    have hsame := h.commit_untouched hc hw []
    rwa [append_nil] at hsame
  rw [step_commitVersion]
  refine {
    names := fun w hw => ?_
    present := fun w hw => ?_
    noted := fun w hw => ?_
    directories := fun w hw => (hplace w (h.noted w hw)).trans (h.directories w hw)
    tmp_file := commitVersion_tmp hc.1 h.tmp_file
    pointer := (h.commit_pointer hc).trans h.pointer }
  · dsimp only at hw
    split at hw
    · rcases mem_cons.mp hw with rfl | hw
      · exact hc.1
      · exact h.names w hw
    · exact h.names w hw
  · dsimp only at hw ⊢
    have hold : w ∈ s.versions →
        (commitVersion root io staged v s.disk).2.node (root ++ [w]) ≠ none := by
      intro hmem
      rw [hplace w hmem]
      exact h.present w hmem
    split at hw
    · rename_i hok
      rcases mem_cons.mp hw with rfl | hw
      · cases hreply : (commitVersion root io staged w s.disk).1 with
        | error e => simp [hreply, Except.isOk, Except.toBool] at hok
        | ok dest => exact commitVersion_ok hc.1 (Prod.ext hreply rfl)
      · exact hold hw
    · exact hold hw
  · dsimp only
    split
    · exact mem_cons_of_mem _ (h.noted w hw)
    · exact h.noted w hw

/-- Without a new activation of the current version, a proper call keeps the standing. -/
theorem step (h : Standing root s) (hc : Proper root s c) (hnot : ¬ Reactivates s c) :
    Standing root (s.step root c) := by
  cases c with
  | commitVersion io staged v => exact h.committed hc
  | activate io v =>
    rw [step_activate]
    refine h.switched hc (fun hio hhead => ?_) rfl
    by_contra hother
    exact hnot ⟨hio, hhead, isSome_iff_ne_none.mpr hother⟩
  | rollback readFails io =>
    rw [step_rollback]
    rcases h.rollback_eq readFails io with ⟨e, hfail⟩ | ⟨w, hother, hactivate⟩
    · rw [hfail]
      exact h
    · obtain ⟨hmem, hne⟩ := lastOther_mem hother
      rw [hactivate]
      exact h.switched (h.names w (h.noted w hmem)) (fun _ hhead => absurd hhead hne) rfl

end Standing

namespace Standing

variable {s : Session β}

/-- While the pointer remembers a version, a rollback makes it current. -/
lemma goes_back (h : Standing root s) {u : String} (hu : lastOther s.history = some u) :
    ∃ p t, rollback root false Io.works s.disk = (.ok p, t) ∧ p.current = u := by
  have hmem := (lastOther_mem hu).1
  have hworks : (Io.works : Io β).Activates := ⟨rfl, rfl, rfl⟩
  obtain ⟨t, ht⟩ := activate_works hworks (h.names u (h.noted u hmem))
    (s.history.head?.map fun v => ⟨v, lastOther s.history⟩) (h.directories u hmem) h.tmp_file
    (by rw [h.pointer, Option.map_map]; rfl)
  refine ⟨pointerAt u (s.history.head?.map fun v => ⟨v, lastOther s.history⟩), t, ?_, rfl⟩
  rw [rollback, h.read]
  cases hhead : s.history.head? with
  | none =>
    rw [List.head?_eq_none_iff] at hhead
    simp [hhead] at hmem
  | some current =>
    rw [hhead] at ht
    simp only [map_some, hu] at ht ⊢
    exact ht

/-- With two different versions that were current, a rollback goes back to the latest one that
differs from the current one. -/
theorem way_back (h : Standing root s) (hv : v ∈ s.history) (hw : w ∈ s.history) (hne : v ≠ w) :
    ∃ p t, rollback root false Io.works s.disk = (.ok p, t) ∧
      lastOther s.history = some p.current := by
  obtain ⟨u, hu⟩ := exists_lastOther hv hw hne
  obtain ⟨p, t, hback, rfl⟩ := h.goes_back hu
  exact ⟨p, t, hback, hu⟩

lemma answer_activate (io : Io β) (v : String) (t : Disk β) :
    Call.answer root (.activate io v) t =
      ((activate root io v t).1.map .pointer, (activate root io v t).2) := rfl

/-- What an activation of a proper name keeps, whoever asks for it. -/
lemma kept_of_activate (h : Standing root s) (io : Io β) (hv : VersionName v)
    (hanswer : c.answer root s.disk = Call.answer root (.activate io v) s.disk)
    (hnext : Standing root (s.step root c)) : Kept root s c := by
  obtain ⟨hkeeps, -, hfailed, hdone⟩ := activate_spec hv
    (Prod.ext rfl rfl : activate root io v s.disk = _)
  refine {
    installed := fun p hp => ?_
    untouched := fun w hw q => ?_
    failed := fun e he => ?_
    way_back := fun _ hv _ hw hne => hnext.way_back hv hw hne }
  · rw [hanswer, answer_activate] at hp ⊢
    cases hr : (activate root io v s.disk).1 with
    | error e =>
      rw [hr] at hp
      cases hp
    | ok p' =>
      rw [hr] at hp
      cases hp
      obtain ⟨hdir, hpointer, old, -, rfl⟩ := hdone p hr
      have hplace := hkeeps v [] hv.not_pointer hv.not_tmp
      rw [append_nil] at hplace
      exact ⟨hplace.trans hdir, hpointer⟩
  · rw [hanswer, answer_activate]
    exact hkeeps w q (h.names w hw).not_pointer (h.names w hw).not_tmp
  · rw [hanswer, answer_activate] at he ⊢
    cases hr : (activate root io v s.disk).1 with
    | error e' => exact hfailed e' hr
    | ok p =>
      rw [hr] at he
      cases he

/-- Without a new activation of the current version, a proper call keeps what it is to keep. -/
theorem kept (h : Standing root s) (hc : Proper root s c) (hnot : ¬ Reactivates s c) :
    Kept root s c := by
  have hnext := h.step hc hnot
  cases c with
  | commitVersion io staged v =>
    refine {
      installed := fun p hp => ?_
      untouched := fun w hw q => h.commit_untouched hc hw q
      failed := fun _ _ => h.commit_pointer hc
      way_back := fun _ hv _ hw hne => hnext.way_back hv hw hne }
    · -- a commit gives back a directory
      unfold Call.answer at hp
      dsimp only at hp
      cases hr : (commitVersion root io staged v s.disk).1 <;>
      · rw [hr] at hp
        cases hp
  | activate io v => exact h.kept_of_activate io hc rfl hnext
  | rollback readFails io =>
    rcases h.rollback_eq readFails io with ⟨e, hfail⟩ | ⟨w, hother, hactivate⟩
    · have hanswer : Call.answer root (.rollback readFails io) s.disk = (.error e, s.disk) := by
        unfold Call.answer
        dsimp only
        rw [hfail]
        rfl
      refine {
        installed := fun p hp => ?_
        untouched := fun w _ q => ?_
        failed := fun _ _ => ?_
        way_back := fun _ hv _ hw hne => hnext.way_back hv hw hne }
      · rw [hanswer] at hp
        cases hp
      · rw [hanswer]
      · rw [hanswer]
    · refine h.kept_of_activate io (h.names w (h.noted w (lastOther_mem hother).1)) ?_
        hnext
      unfold Call.answer
      dsimp only
      rw [hactivate]

/-- A new activation of the current version forgets the version before. -/
theorem not_kept (h : Standing root s) (hc : Reactivates s c) : ¬ Kept root s c := by
  intro hkept
  cases c with
  | commitVersion io staged v => exact hc
  | rollback readFails io => exact hc
  | activate io v =>
    obtain ⟨hio, hhead, hother⟩ := hc
    obtain ⟨u, hu⟩ := isSome_iff_exists.mp hother
    obtain ⟨humem, hune⟩ := lastOther_mem hu
    have hvmem : v ∈ s.history := mem_of_mem_head? hhead
    have hvname := h.names v (h.noted v hvmem)
    obtain ⟨t, ht⟩ := activate_works hio hvname
      (s.history.head?.map fun v => ⟨v, lastOther s.history⟩) (h.directories v hvmem) h.tmp_file
      (by rw [h.pointer, Option.map_map]; rfl)
    have hstep : s.step root (.activate io v) =
        ⟨t, v :: s.versions, v :: s.history⟩ := by
      rw [step_activate, ht]
      rfl
    have hne : v ≠ u := by
      rintro rfl
      exact hune hhead
    obtain ⟨p, t', hback, -⟩ := hkept.way_back v (by rw [hstep]; exact mem_cons_self) u
      (by rw [hstep]; exact mem_cons_of_mem _ humem) hne
    -- the pointer that was written has no version before
    obtain ⟨-, -, -, hdone⟩ := activate_spec hvname ht
    obtain ⟨-, hpointer, -⟩ := hdone _ rfl
    rw [hstep, rollback, readPointer, if_neg (by simp), hpointer, hhead] at hback
    simp [pointerAt, Option.filter] at hback

theorem kept_iff (h : Standing root s) (hc : Proper root s c) : Kept root s c ↔ ¬ Reactivates s c :=
  ⟨fun hkept hre => h.not_kept hre hkept, h.kept hc⟩

end Standing

/-- Nothing was called yet. -/
def Session.start (t : Disk β) : Session β := ⟨t, [], []⟩

lemma standing_start (hpointer : t.node (root ++ [POINTER]) = none)
    (htmp : t.node (root ++ [POINTER_TMP]) ≠ some .dir) : Standing root (Session.start t) where
  names _ hv := by cases hv
  present _ hv := by cases hv
  noted _ hv := by cases hv
  directories _ hv := by cases hv
  tmp_file := htmp
  pointer := hpointer

/-- Over a sequence of proper calls on a root, every call keeps what it is to keep exactly when
none of them activates the current version anew after another one was current. -/
theorem way_back_kept_iff {t : Disk β} (hpointer : t.node (root ++ [POINTER]) = none)
    (htmp : t.node (root ++ [POINTER_TMP]) ≠ some .dir) (calls : List (Call β))
    (hproper : Throughout (Session.step root) (Proper root) (Session.start t) calls) :
    Throughout (Session.step root) (Kept root) (Session.start t) calls ↔
      Throughout (Session.step root) (fun s c => ¬ Reactivates s c) (Session.start t) calls :=
  Lib.throughout_congr (fun _ _ h hc => h.kept_iff hc) (fun _ _ h hc hnot => h.step hc hnot)
    (standing_start hpointer htmp) hproper

/-! A root with two staging directories beside it. -/

/-- The directories of a tree where each lies at the top. -/
def topDirs (names : List String) : Disk Unit where
  node p := if p = [] ∨ p.length = 1 ∧ p.all (names.contains ·) then some .dir else none
  top_dir := rfl
  parent_dir p name h := by
    by_cases hp : p = []
    · simp [hp]
    · have hlen : (p ++ [name]).length ≠ 1 := by simpa using hp
      simp only [hlen, false_and, or_false] at h
      simp at h

def releases : List (Call Unit) := [
  .commitVersion Io.works ["staged-3"] "0.2.3",
  .commitVersion Io.works ["staged-4"] "0.2.4",
  .activate Io.works "0.2.3",
  .activate Io.works "0.2.4"]

def launcherRoot : TreePath := ["agenterm"]

def released : Session Unit :=
  Lib.run (Session.step launcherRoot) (Session.start (topDirs ["staged-3", "staged-4"])) releases

theorem way_back_kept_releases :
    Throughout (Session.step launcherRoot) (Kept launcherRoot)
        (Session.start (topDirs ["staged-3", "staged-4"])) releases ↔
      Throughout (Session.step launcherRoot) (fun s c => ¬ Reactivates s c)
        (Session.start (topDirs ["staged-3", "staged-4"])) releases :=
  way_back_kept_iff (by decide) (by decide) releases (by decide)

/-- Activating the version that is current leaves nothing to roll back to. -/
theorem reactivation_forgets :
    let s := Session.step launcherRoot released (.activate Io.works "0.2.4")
    s.history = ["0.2.4", "0.2.4", "0.2.3"] ∧
      (rollback launcherRoot false Io.works released.disk).1 = .ok ⟨"0.2.3", some "0.2.4"⟩ ∧
      (rollback launcherRoot false Io.works s.disk).1 =
        .error (.notFound "no previous version") := by
  decide

end Agenterm.Launcher
