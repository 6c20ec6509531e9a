import Agenterm.Lib.PaddedOrder
import Agenterm.Text

/-!
# Versions and the launcher's decision

`agenterm-launcher-core`: numeric dotted versions and their order (`version.rs`), what a local
installation says about itself (`probe.rs`) and the state that the launcher shows (`state.rs`).
-/

namespace Agenterm.Launcher

/-- The largest `u64`. -/
def u64Max : Nat := 18446744073709551615

/-- HOSTIF major this launcher speaks. -/
def HOSTIF_MAJOR : Nat := 1

/-- Capabilities the assistant UI needs. -/
def REQUIRED_CAPABILITIES : List String := ["exec", "mux", "pty"]

/-- A numeric dotted version. The derived `==` compares the component lists. -/
structure Version where
  components : List Nat
deriving DecidableEq

namespace Version

def parse (s : String) : Option Version :=
  match (s.toList.splitOn '.').mapM (parseUnsigned u64Max) with
  | none => none
  | some parts => if parts.isEmpty then none else some ⟨parts⟩

/-- `none` where the index panics. -/
def major (v : Version) : Option Nat := v.components[0]?

/-- Missing trailing components count as zero. -/
def cmp (self other : Version) : Ordering :=
  let n := max self.components.length other.components.length
  let orders := (List.range n).map fun i =>
    compare (self.components.getD i 0) (other.components.getD i 0)
  (orders.find? (·.isNe)).getD .eq

end Version

structure VersionInfo where
  version : String
  hostif : String
  os : String
  arch : String
  asset : String
deriving DecidableEq

structure Handshake where
  hostif : String
  version : String
  capabilities : List String
deriving DecidableEq

inductive Probe where
  /-- Answered the HOSTIF probe. -/
  | hostif (info : VersionInfo)
  /-- Older than HOSTIF. -/
  | legacy
deriving DecidableEq

inductive LauncherState where
  | missing
  | legacy
  | incompatible (reason : String)
  | updateAvailable (localVersion latest : String)
  | current (localVersion : String) (remoteOlder : Bool)
  | offline (localVersion : String)
  | offlineMissing
deriving DecidableEq

structure Inputs where
  probe : Option Probe
  handshake : Option Handshake
  /-- `none`: the latest manifest could not be fetched within the bound. -/
  latestVersion : Option String

/-- The required capabilities that a handshake does not list. -/
def missingCapabilities (h : Handshake) : List String :=
  REQUIRED_CAPABILITIES.filter fun c => !h.capabilities.contains c

/-- The last part of `decide`, for a usable installation. -/
def decideUpdate (localVersion : String) (latestVersion : Option String) : LauncherState :=
  match latestVersion with
  | none => .offline localVersion
  | some latest =>
    match Version.parse localVersion, Version.parse latest with
    | some l, some r =>
      if r.cmp l = .gt then .updateAvailable localVersion latest
      else .current localVersion (r.cmp l = .lt)
    | _, _ => .current localVersion false

/-- Whether the installation speaks the launcher's HOSTIF major. -/
def speaksHostif (info : VersionInfo) : Bool :=
  match Version.parse info.hostif with
  | some v => v.major = some HOSTIF_MAJOR
  | none => false

def decide (i : Inputs) : LauncherState :=
  match i.probe with
  | none => if i.latestVersion.isSome then .missing else .offlineMissing
  | some .legacy => .legacy
  | some (.hostif info) =>
    if !speaksHostif info then
      .incompatible s!"hostif {info.hostif}"
    else
      let missing := (i.handshake.map missingCapabilities).getD []
      if !missing.isEmpty then
        .incompatible ("missing " ++ ",".intercalate missing)
      else
        decideUpdate info.version i.latestVersion

/-!
`cmp` is the linear order of the versions read as sequences that end in zeros
(`Version.cmp_eq_compare`), so it is a total preorder on versions. The derived equality is finer:
it tells `1.0` from `1.0.0`, which `cmp` does not (`order_laws`). An update is offered only when
`cmp` puts the latest version above the local one (`decide_updateAvailable`).
-/

variable {a b : Version}

namespace Version

/-- The sequence that `cmp` reads in a version. -/
def places (v : Version) : Nat → Nat := Lib.padded 0 v.components

/-- One of the versions is the other with trailing zeros written out. -/
def WritesZeros (a b : Version) : Prop :=
  ∃ k, 0 < k ∧ (a.components = b.components ++ List.replicate k 0 ∨
    b.components = a.components ++ List.replicate k 0)

theorem cmp_eq_compare (a b : Version) : a.cmp b = compare (toLex a.places) (toLex b.places) :=
  Lib.find_compare_padded 0 a.components b.components

lemma cmp_eq_iff_places : a.cmp b = .eq ↔ a.places = b.places := by
  rw [cmp_eq_compare, compare_eq_iff_eq]
  exact toLex_inj

lemma cmp_ne_gt_iff : a.cmp b ≠ .gt ↔ toLex a.places ≤ toLex b.places := by
  rw [cmp_eq_compare, ne_eq, compare_gt_iff_gt, not_lt]

theorem cmp_self (a : Version) : a.cmp a = .eq := cmp_eq_iff_places.mpr rfl

theorem cmp_swap (a b : Version) : b.cmp a = (a.cmp b).swap := by
  rw [cmp_eq_compare, cmp_eq_compare]
  rcases lt_trichotomy (toLex a.places) (toLex b.places) with h | h | h
  · rw [compare_gt_iff_gt.mpr h, compare_lt_iff_lt.mpr h, Ordering.swap]
  · rw [h, compare_eq_iff_eq.mpr rfl, Ordering.swap]
  · rw [compare_lt_iff_lt.mpr h, compare_gt_iff_gt.mpr h, Ordering.swap]

theorem cmp_total (a b : Version) : a.cmp b ≠ .gt ∨ b.cmp a ≠ .gt := by
  rw [cmp_ne_gt_iff, cmp_ne_gt_iff]
  exact le_total _ _

theorem cmp_trans {c : Version} (hab : a.cmp b ≠ .gt) (hbc : b.cmp c ≠ .gt) : a.cmp c ≠ .gt := by
  rw [cmp_ne_gt_iff] at hab hbc ⊢
  exact le_trans hab hbc

/-- Neither version comes after the other exactly when they compare as equal. -/
lemma cmp_eq_iff : a.cmp b = .eq ↔ a.cmp b ≠ .gt ∧ b.cmp a ≠ .gt := by
  rw [cmp_swap a b]
  cases a.cmp b <;> simp

/-- Versions that compare as equal are the same, or one writes out zeros of the other. -/
theorem cmp_eq_iff_eq_or : a.cmp b = .eq ↔ a = b ∨ WritesZeros a b := by
  rw [cmp_eq_iff_places, places, places, Lib.padded_eq_iff]
  constructor
  · rintro ⟨k, hk⟩
    rcases Nat.eq_zero_or_pos k with rfl | hpos
    · left
      cases a
      cases b
      simpa [eq_comm] using hk
    · exact .inr ⟨k, hpos, hk⟩
  · rintro (rfl | ⟨k, -, hk⟩)
    · exact ⟨0, .inl (by simp)⟩
    · exact ⟨k, hk⟩

lemma WritesZeros.ne (h : WritesZeros a b) : a ≠ b := by
  rintro rfl
  obtain ⟨k, hpos, hk | hk⟩ := h <;>
  · have hlen := congrArg List.length hk
    rw [List.length_append, List.length_replicate] at hlen
    omega

/-- The derived equality is what `cmp` calls equal, for versions none of which writes out the
zeros of the other, and for no others. -/
theorem eq_iff_cmp_eq_iff : (a = b ↔ a.cmp b = .eq) ↔ ¬ WritesZeros a b := by
  rw [cmp_eq_iff_eq_or]
  constructor
  · intro h hzeros
    exact hzeros.ne (h.mpr (.inr hzeros))
  · intro h
    simp [h]

end Version

lemma decideUpdate_updateAvailable {version lo la : String} {latest : Option String}
    (h : decideUpdate version latest = .updateAvailable lo la) :
    lo = version ∧ latest = some la ∧ ∃ l r, Version.parse lo = some l ∧
      Version.parse la = some r ∧ r.cmp l = .gt := by
  unfold decideUpdate at h
  split at h
  · cases h
  · rename_i remote
    split at h
    · rename_i l r hl hr
      by_cases hgt : r.cmp l = .gt
      · rw [if_pos hgt, LauncherState.updateAvailable.injEq] at h
        obtain ⟨rfl, rfl⟩ := h
        exact ⟨rfl, rfl, l, r, hl, hr, hgt⟩
      · rw [if_neg hgt] at h
        cases h
    · cases h

/-- An update is offered for the installation that answered the probe, and to a version that comes
after its own. -/
theorem decide_updateAvailable {i : Inputs} {lo la : String}
    (h : decide i = .updateAvailable lo la) :
    (∃ info, i.probe = some (.hostif info) ∧ lo = info.version) ∧ i.latestVersion = some la ∧
      ∃ l r, Version.parse lo = some l ∧ Version.parse la = some r ∧ r.cmp l = .gt := by
  unfold decide at h
  split at h
  · split at h <;> cases h
  · cases h
  · rename_i info hprobe
    split at h
    · cases h
    · dsimp only at h
      split at h
      · cases h
      · obtain ⟨hlo, hla, hgt⟩ := decideUpdate_updateAvailable h
        exact ⟨⟨info, hprobe, hlo⟩, hla, hgt⟩

/-- The laws of the order hold for all versions, except that the equality is the derived one
only where no version writes out zeros of the other. -/
theorem order_laws (a b c : Version) (i : Inputs) :
    (a.cmp a = .eq ∧ (a.cmp b ≠ .gt ∨ b.cmp a ≠ .gt) ∧
      (a.cmp b ≠ .gt → b.cmp c ≠ .gt → a.cmp c ≠ .gt) ∧
      ∀ lo la, decide i = .updateAvailable lo la →
        (∃ info, i.probe = some (.hostif info) ∧ lo = info.version) ∧ i.latestVersion = some la ∧
          ∃ l r, Version.parse lo = some l ∧ Version.parse la = some r ∧ r.cmp l = .gt) ∧
    (((a.cmp b ≠ .gt → b.cmp a ≠ .gt → a = b) ∧ (a = b ↔ a.cmp b = .eq)) ↔
      ¬ Version.WritesZeros a b) := by
  refine ⟨⟨a.cmp_self, a.cmp_total b, Version.cmp_trans, fun lo la => decide_updateAvailable⟩, ?_⟩
  rw [← Version.eq_iff_cmp_eq_iff]
  constructor
  · exact And.right
  · intro heq
    exact ⟨fun hab hba => heq.mpr (Version.cmp_eq_iff.mpr ⟨hab, hba⟩), heq⟩

/-- `1.0` and `1.0.0` are told apart by the equality and not by the order. -/
theorem trailing_zero_differs :
    ∃ a b, Version.parse "1.0" = some a ∧ Version.parse "1.0.0" = some b ∧
      ¬ (a = b ↔ a.cmp b = .eq) := by
  refine ⟨⟨[1, 0]⟩, ⟨[1, 0, 0]⟩, ?_⟩
  decide

end Agenterm.Launcher
