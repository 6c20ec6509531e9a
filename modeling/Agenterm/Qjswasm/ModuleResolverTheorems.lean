import Agenterm.Lib.PricedCache
import Agenterm.Lib.Run
import Agenterm.Qjswasm.ModuleResolver

/-!
# The account of a resolver ledger

A ledger is a cache whose modules are paid for with bytes (`ResolverLedger.asCache`).
`resolve_served` says once what a call of a resolver may answer and do; from it the account and the
other invariants (`LedgerInv`) hold after every sequence of calls. `ledger_account` is the main
result.
-/

namespace Agenterm.Qjswasm

open Lib List ResolverLedger
open PricedCache hiding held mk

/-! ## The ledger as a cache -/

/-- What makes two answers the same module. -/
inductive ModuleKey where
  | builtin (specifier : String)
  | file (path : CanonicalPath)
deriving DecidableEq

def Origin.key : Origin → ModuleKey
  | .builtin specifier => .builtin specifier
  | .file path _ => .file path

/-- A file was found under one of the roots. -/
def Origin.Within (roots : List CanonicalPath) : Origin → Prop
  | .builtin _ => True
  | .file path root => root ∈ roots ∧ root <+: path

variable {quoted : String → String} {builtin : String → Option String}

/-- The text of a module that was taken in. -/
def ResolverLedger.held (builtin : String → Option String) (ledger : ResolverLedger) :
    ModuleKey → Option String
  | .builtin specifier => if specifier ∈ ledger.resolvedBuiltins then builtin specifier else none
  | .file path => ledger.resolvedModules.lookup path

def ResolverLedger.asCache (builtin : String → Option String) (ledger : ResolverLedger) :
    PricedCache ModuleKey String where
  spent := ledger.compileSourceBytes
  entries := ledger.importedModules
  held := ledger.held builtin

/-- What a ledger was configured with. -/
def ResolverLedger.limits (ledger : ResolverLedger) : Nat × Nat × Nat :=
  (ledger.perSourceMax, ledger.aggregateSourceMax, ledger.modulesMax)

/-! ## What a resolver may answer -/

/-- The result of a call of a resolver, as far as the account is concerned. -/
inductive Served (builtin : String → Option String) (ledger : ResolverLedger)
    (roots : List CanonicalPath) : ResolverLedger × Option Resolved → Prop where
  /-- Nothing was answered, perhaps with a recorded failure. -/
  | nothing (failure : Option ResolverFailure) :
      Served builtin ledger roots ({ ledger with failure := failure }, none)
  | again {answer : Resolved} (hwithin : answer.origin.Within roots)
      (hheld : ledger.held builtin answer.origin.key = some answer.source) :
      Served builtin ledger roots (ledger, some answer)
  | new {answer : Resolved} {ledger' : ResolverLedger} (hwithin : answer.origin.Within roots)
      (hheld : ledger.held builtin answer.origin.key = none)
      (hsource : answer.source.utf8ByteSize ≤ ledger.perSourceMax)
      (htotal : saturatingAdd ledger.compileSourceBytes answer.source.utf8ByteSize ≤
        ledger.aggregateSourceMax)
      (hmodules : ledger.importedModules < ledger.modulesMax)
      (hlimits : ledger'.limits = ledger.limits)
      (hcache : ledger'.asCache builtin =
        { spent := saturatingAdd ledger.compileSourceBytes answer.source.utf8ByteSize
          entries := ledger.importedModules + 1
          held := Function.update (ledger.held builtin) answer.origin.key (some answer.source) }) :
      Served builtin ledger roots (ledger', some answer)

variable {ledger : ResolverLedger} {roots : List CanonicalPath}

lemma refuse_served (failure : ResolverFailure) :
    Served builtin ledger roots (ledger.refuse failure) :=
  .nothing (some failure)

/-- Nothing is answered and nothing changes. -/
lemma none_served : Served builtin ledger roots (ledger, none) := .nothing ledger.failure

variable {ledger' : ResolverLedger} {source specifier : String}

/-- The built-in module that was taken in, beside those of before. -/
lemma held_builtin (hsource : builtin specifier = some source)
    (hbuiltins : ledger'.resolvedBuiltins = specifier :: ledger.resolvedBuiltins)
    (hmodules : ledger'.resolvedModules = ledger.resolvedModules) :
    ledger'.held builtin =
      Function.update (ledger.held builtin) (.builtin specifier) (some source) := by
  funext key
  cases key with
  | file path =>
    have hkey : ModuleKey.file path ≠ .builtin specifier := nofun
    rw [Function.update_of_ne hkey]
    exact congrArg (List.lookup path) hmodules
  | builtin asked =>
    show (if asked ∈ ledger'.resolvedBuiltins then builtin asked else none) = _
    rw [hbuiltins]
    by_cases hasked : asked = specifier
    · subst hasked
      rw [if_pos mem_cons_self, hsource, Function.update_self]
    · rw [Function.update_of_ne (fun heq => hasked (ModuleKey.builtin.inj heq))]
      show _ = if asked ∈ ledger.resolvedBuiltins then builtin asked else none
      simp only [mem_cons, hasked, false_or]

variable {failure : ResolverFailure} {path root : CanonicalPath} {rest : List CanonicalPath}
  {surroundings : Surroundings}

/-- The file that was taken in, beside those of before. -/
lemma held_file (hbuiltins : ledger'.resolvedBuiltins = ledger.resolvedBuiltins)
    (hmodules : ledger'.resolvedModules = (path, source) :: ledger.resolvedModules) :
    ledger'.held builtin =
      Function.update (ledger.held builtin) (.file path) (some source) := by
  funext key
  cases key with
  | builtin specifier =>
    have hkey : ModuleKey.builtin specifier ≠ .file path := nofun
    rw [Function.update_of_ne hkey]
    show (if specifier ∈ ledger'.resolvedBuiltins then builtin specifier else none) = _
    rw [hbuiltins]
    rfl
  | file asked =>
    show List.lookup asked ledger'.resolvedModules = _
    rw [hmodules]
    by_cases hasked : asked = path
    · subst hasked
      rw [lookup_cons_self, Function.update_self]
    · rw [Function.update_of_ne (fun heq => hasked (ModuleKey.file.inj heq)), lookup_cons,
        beq_false_of_ne hasked]
      rfl

lemma resolveBuiltin_served (hsource : builtin specifier = some source) :
    Served builtin ledger roots (ledger.resolveBuiltin quoted specifier source) := by
  unfold resolveBuiltin
  split
  · rename_i hmem
    refine .again trivial ?_
    show (if specifier ∈ ledger.resolvedBuiltins then builtin specifier else none) = some source
    rw [if_pos hmem, hsource]
  · rename_i hnew
    split
    · exact refuse_served _
    · rename_i hfits
      obtain ⟨hper, htotal⟩ := not_or.mp hfits
      split
      · exact refuse_served _
      · rename_i hroom
        refine .new trivial (if_neg hnew) (Nat.le_of_not_lt hper) (Nat.le_of_not_lt htotal)
          (Nat.lt_of_not_le hroom) rfl ?_
        show PricedCache.mk _ _ _ = _
        congr 1
        exact held_builtin hsource rfl rfl

lemma load_served {opened : Except String (Except String ByteArray)} {afterRead : Moment}
    (hroot : root ∈ roots) (hpath : root <+: path)
    (hnew : ledger.resolvedModules.lookup path = none)
    (hmodules : ledger.importedModules < ledger.modulesMax) :
    Served builtin ledger roots (ledger.load quoted specifier path root opened afterRead) := by
  unfold load
  split
  · exact refuse_served _
  split
  · exact refuse_served _
  rename_i source _
  split
  · exact refuse_served _
  split
  · exact refuse_served _
  · rename_i hfits
    obtain ⟨hper, htotal⟩ := not_or.mp hfits
    refine .new ⟨hroot, hpath⟩ hnew (Nat.le_of_not_lt hper) (Nat.le_of_not_lt htotal) hmodules
      rfl ?_
    show PricedCache.mk _ _ _ = _
    congr 1
    exact held_file rfl rfl

lemma priced_ok {sourceLen : Nat} (h : ledger.priced quoted specifier sourceLen = .ok ()) :
    ledger.importedModules < ledger.modulesMax := by
  unfold priced at h
  split at h
  · cases h
  · split at h
    · cases h
    · omega

/-- The turns of the roots that are left. -/
lemma resolveFile_served (hrest : ∀ root ∈ rest, root ∈ roots) :
    Served builtin ledger roots (ledger.resolveFile quoted specifier surroundings rest) := by
  induction rest with
  | nil => exact none_served
  | cons root rest ih =>
    have hroot := hrest root mem_cons_self
    have hnext := ih fun root' hmem => hrest root' (mem_cons_of_mem _ hmem)
    unfold resolveFile
    dsimp only
    split
    · exact hnext
    rename_i path _
    split
    · rename_i hpath
      split
      · rename_i source hfound
        exact .again ⟨hroot, hpath⟩ hfound
      rename_i hnew
      split
      · exact refuse_served _
      split
      · split
        · exact refuse_served _
        · rename_i hpriced
          exact load_served hroot hpath hnew (priced_ok hpriced)
      · exact hnext
    · exact hnext

variable (quoted builtin ledger roots) in
theorem resolve_served (specifier : String) (surroundings : Surroundings) :
    Served builtin ledger roots (ledger.resolve quoted builtin roots specifier surroundings) := by
  unfold resolve
  split
  · exact none_served
  split
  · exact refuse_served _
  split
  · rename_i hsource
    exact resolveBuiltin_served hsource
  · exact resolveFile_served fun root hmem => hmem

/-- A recorded failure is the answer to every call. -/
lemma resolve_of_failure (h : ledger.failure = some failure) (specifier : String)
    (surroundings : Surroundings) :
    ledger.resolve quoted builtin roots specifier surroundings = (ledger, none) := by
  unfold resolve
  rw [h]
  rfl

/-! ## A module that is held -/

/-- The turn of a root ends without an answer: what it leads to is outside of it, or is neither
held nor a file. -/
def Skips (ledger : ResolverLedger) (specifier : String) (surroundings : Surroundings)
    (root : CanonicalPath) : Prop :=
  ∀ path, (surroundings.fileSystem root).canonicalize (candidate root specifier) = some path →
    root <+: path → ledger.resolvedModules.lookup path = none ∧
      ∃ metadata, (surroundings.fileSystem root).metadata path = .ok metadata ∧
        metadata.isFile = false

/-- The module that a request asks for: a built-in by its specifier, otherwise the file that the
first root leads to whose turn gives an answer. -/
def Requests (builtin : String → Option String) (ledger : ResolverLedger)
    (roots : List CanonicalPath) (specifier : String) (surroundings : Surroundings) :
    ModuleKey → Prop
  | .builtin asked => specifier = asked
  | .file path => builtin specifier = none ∧ ∃ passed root rest, roots = passed ++ root :: rest ∧
      (∀ earlier ∈ passed, Skips ledger specifier surroundings earlier) ∧
      (surroundings.fileSystem root).canonicalize (candidate root specifier) = some path ∧
      root <+: path

lemma resolveFile_skips (h : Skips ledger specifier surroundings root) :
    ledger.resolveFile quoted specifier surroundings (root :: rest) =
      ledger.resolveFile quoted specifier surroundings rest := by
  rw [resolveFile]
  split
  · rfl
  · next path hpath =>
    split
    · next hwithin =>
      obtain ⟨hnew, metadata, hmetadata, hfile⟩ := h path hpath hwithin
      simp [hnew, hmetadata, hfile]
    · rfl

/-- The roots that are skipped change nothing, and the next one answers with what is held. -/
lemma resolveFile_held {passed : List CanonicalPath}
    (hskips : ∀ earlier ∈ passed, Skips ledger specifier surroundings earlier)
    (hpath : (surroundings.fileSystem root).canonicalize (candidate root specifier) = some path)
    (hwithin : root <+: path) (hheld : ledger.resolvedModules.lookup path = some source) :
    ledger.resolveFile quoted specifier surroundings (passed ++ root :: rest) =
      (ledger, some ⟨.file path root, source⟩) := by
  induction passed with
  | nil =>
    show ledger.resolveFile quoted specifier surroundings (root :: rest) = _
    rw [resolveFile]
    simp [hpath, hwithin, hheld]
  | cons earlier passed ih =>
    rw [cons_append, resolveFile_skips (hskips earlier mem_cons_self)]
    exact ih fun root hmem => hskips root (mem_cons_of_mem _ hmem)

variable (quoted) in
/-- A request for a module that is held is answered with its text, and nothing is charged. -/
theorem resolve_held {key : ModuleKey} (hfailure : ledger.failure = none)
    (hentered : ledger.interrupted surroundings.entered = none)
    (hrequests : Requests builtin ledger roots specifier surroundings key)
    (hheld : ledger.held builtin key = some source) :
    ∃ answer : Resolved, answer.origin.key = key ∧ answer.source = source ∧
      ledger.resolve quoted builtin roots specifier surroundings = (ledger, some answer) := by
  unfold resolve
  rw [hfailure, hentered]
  cases key with
  | builtin asked =>
    obtain rfl : specifier = asked := hrequests
    change (if specifier ∈ ledger.resolvedBuiltins then builtin specifier else none) = _ at hheld
    split at hheld
    · next hmem =>
      refine ⟨⟨.builtin specifier, source⟩, rfl, rfl, ?_⟩
      rw [hheld]
      show ledger.resolveBuiltin quoted specifier source = _
      rw [resolveBuiltin, if_pos hmem]
    · cases hheld
  | file path =>
    obtain ⟨hbuiltin, passed, root, rest, rfl, hskips, hpath, hwithin⟩ := hrequests
    refine ⟨⟨.file path root, source⟩, rfl, rfl, ?_⟩
    rw [hbuiltin]
    exact resolveFile_held hskips hpath hwithin hheld

/-! ## Runs -/

/-- What a call and its reply are for the account. -/
def ledgerEvent : LedgerCall × LedgerReply → PricedCache.Event ModuleKey String
  | (_, .resolved (some answer)) => .answer answer.origin.key answer.source
  | (.chargeEntryBytes bytes, _) => .spend bytes
  | _ => .idle

/-- A file that was answered lies under the root that answered, a root of the resolver. -/
def Confined : LedgerCall × LedgerReply → Prop
  | (.resolve canonicalize roots _ _, .resolved (some answer)) =>
    answer.origin.Within (canonicalRoots canonicalize roots)
  | _ => True

namespace LedgerRun

/-- A new ledger. -/
def start (config : ResolverLedgerConfig) : LedgerRun := ⟨.new config, []⟩

/-- The modules that were answered, each once, by what makes them the same. -/
def distinct (run : LedgerRun) : List (ModuleKey × String) :=
  firsts (answers (run.replies.map ledgerEvent))

/-- The bytes of entries that were charged. -/
def entryBytes (run : LedgerRun) : Nat := spending (run.replies.map ledgerEvent)

/-- The answer was given. -/
def Returned (run : LedgerRun) (answer : Resolved) : Prop :=
  ∃ call, (call, .resolved (some answer)) ∈ run.replies

end LedgerRun

/-- What holds of a ledger after every sequence of calls. -/
structure LedgerInv (builtin : String → Option String) (config : ResolverLedgerConfig)
    (run : LedgerRun) : Prop where
  limits : run.ledger.limits = (new config).limits
  account : PricedCache.Account u64Max String.utf8ByteSize config.entryBytes config.importedModules
    (run.replies.map ledgerEvent) (run.ledger.asCache builtin)
  modules : run.ledger.importedModules ≤ config.modulesMax
  sources : ∀ key source, run.ledger.held builtin key = some source →
    source.utf8ByteSize ≤ config.perSourceMax
  confined : ∀ entry ∈ run.replies, Confined entry

variable {config : ResolverLedgerConfig} {run : LedgerRun}

lemma ledgerStart_sound (hcount : config.importedModules ≤ config.modulesMax) :
    LedgerInv builtin config (.start config) where
  limits := rfl
  account := by
    refine account_nil rfl config.entryBytes_le rfl ?_
    intro key
    cases key <;> rfl
  modules := hcount
  sources key source hheld := by
    cases key <;> exact absurd hheld nofun
  confined entry hmem := absurd hmem not_mem_nil

/-- The replies of a run with one more. -/
lemma LedgerInv.confined_concat (h : LedgerInv builtin config run)
    {entry : LedgerCall × LedgerReply} (hentry : Confined entry) :
    ∀ entry' ∈ run.replies ++ [entry], Confined entry' := by
  intro entry' hmem
  rcases mem_append.mp hmem with hold | hlast
  · exact h.confined entry' hold
  · rw [mem_singleton.mp hlast]
    exact hentry

/-- A call that changes neither the account nor the limits. -/
lemma LedgerInv.of_idle (h : LedgerInv builtin config run) {run' : LedgerRun} {call : LedgerCall}
    {reply : LedgerReply} (hreplies : run'.replies = run.replies ++ [(call, reply)])
    (hlimits : run'.ledger.limits = run.ledger.limits)
    (hcache : run'.ledger.asCache builtin = run.ledger.asCache builtin)
    (hconfined : Confined (call, reply))
    (hstep : PricedCache.Step u64Max String.utf8ByteSize (run.ledger.asCache builtin)
      (ledgerEvent (call, reply)) (run.ledger.asCache builtin)) :
    LedgerInv builtin config run' where
  limits := hlimits.trans h.limits
  account := by
    rw [hreplies, map_append, hcache]
    exact h.account.step hstep
  modules := by
    have hcount : run'.ledger.importedModules = run.ledger.importedModules :=
      congrArg entries hcache
    rw [hcount]
    exact h.modules
  sources key source hheld := by
    have hsame : run'.ledger.held builtin = run.ledger.held builtin :=
      congrArg PricedCache.held hcache
    rw [hsame] at hheld
    exact h.sources key source hheld
  confined := by
    rw [hreplies]
    exact h.confined_concat hconfined

/-- Every call of a ledger keeps its account. -/
theorem ledgerStep_sound (h : LedgerInv builtin config run) (call : LedgerCall) :
    LedgerInv builtin config (run.step quoted builtin call) := by
  cases call with
  | takeFailure => exact h.of_idle rfl rfl rfl trivial (.idle _)
  | chargeEntryBytes bytes =>
    have hledger : ((run.step quoted builtin (.chargeEntryBytes bytes)).ledger) =
        { run.ledger with
          compileSourceBytes := saturatingAdd run.ledger.compileSourceBytes bytes } := by
      show (run.ledger.chargeEntryBytes bytes).1 = _
      unfold chargeEntryBytes
      dsimp only
      split <;> rfl
    refine ⟨?_, ?_, ?_, ?_, h.confined_concat trivial⟩
    · rw [hledger]
      exact h.limits
    · have hstep := h.account.step (.spend _ bytes)
      rw [hledger]
      show PricedCache.Account _ _ _ _ ((run.replies ++ [_]).map ledgerEvent) _
      rw [map_append]
      exact hstep
    · rw [hledger]
      exact h.modules
    · rw [hledger]
      exact h.sources
  | resolve canonicalize roots specifier surroundings =>
    have hserved := resolve_served quoted builtin run.ledger
      (canonicalRoots canonicalize roots) specifier surroundings
    generalize hresult : run.ledger.resolve quoted builtin
      (canonicalRoots canonicalize roots) specifier surroundings = result at hserved
    have hstep : run.step quoted builtin (.resolve canonicalize roots specifier surroundings) =
        ⟨result.1, run.replies ++
          [(.resolve canonicalize roots specifier surroundings, .resolved result.2)]⟩ := by
      rw [← hresult]
      rfl
    rw [hstep]
    cases hserved with
    | nothing failure => exact h.of_idle rfl rfl rfl trivial (.idle _)
    | again hwithin hheld => exact h.of_idle rfl rfl rfl hwithin (.again hheld)
    | @new answer ledger' hwithin hheld hsource htotal hmodules hlimits hcache =>
      have hconfig := h.limits
      obtain ⟨hper, hrest⟩ := Prod.mk.inj hconfig
      obtain ⟨-, hmax⟩ := Prod.mk.inj hrest
      refine ⟨hlimits.trans hconfig, ?_, ?_, ?_, h.confined_concat hwithin⟩
      · have hnext := h.account.step (.new answer.source hheld)
        rw [map_append]
        show PricedCache.Account _ _ _ _ _ (ledger'.asCache builtin)
        rw [hcache]
        exact hnext
      · have hcount : ledger'.importedModules = run.ledger.importedModules + 1 :=
          congrArg entries hcache
        show ledger'.importedModules ≤ config.modulesMax
        rw [hcount]
        have hmax' : run.ledger.modulesMax = config.modulesMax := hmax
        omega
      · intro key source hheld'
        have hafter : ledger'.held builtin =
            Function.update (run.ledger.held builtin) answer.origin.key (some answer.source) :=
          congrArg PricedCache.held hcache
        change ledger'.held builtin key = some source at hheld'
        rw [hafter] at hheld'
        by_cases hkey : key = answer.origin.key
        · rw [hkey, Function.update_self] at hheld'
          rw [← Option.some.inj hheld']
          have hper' : run.ledger.perSourceMax = config.perSourceMax := hper
          omega
        · rw [Function.update_of_ne hkey] at hheld'
          exact h.sources key source hheld'

theorem ledgerRun_sound (hcount : config.importedModules ≤ config.modulesMax)
    (calls : List LedgerCall) :
    LedgerInv builtin config (Lib.run (LedgerRun.step quoted builtin) (.start config) calls) :=
  run_invariant (P := LedgerInv builtin config) (fun _ call h => ledgerStep_sound h call)
    (ledgerStart_sound hcount) calls

lemma LedgerInv.answer_mem (h : LedgerInv builtin config run) {answer : Resolved}
    (hreturned : run.Returned answer) :
    run.ledger.held builtin answer.origin.key = some answer.source := by
  obtain ⟨call, hmem⟩ := hreturned
  refine h.account.answers_held _ _ (mem_filterMap.mpr ⟨ledgerEvent (call, _),
    mem_map_of_mem hmem, ?_⟩)
  cases call <;> rfl

/-- What one more call of a resolver does to the account. -/
lemma LedgerInv.resolve_step (h : LedgerInv builtin config run) (roots : List CanonicalPath)
    (specifier : String) (surroundings : Surroundings) {reply : Option Resolved}
    (hresult : run.ledger.resolve quoted builtin roots specifier surroundings = (ledger', reply)) :
    (ledger'.compileSourceBytes = run.ledger.compileSourceBytes ∨
      ledger'.compileSourceBytes ≤ config.aggregateSourceMax) ∧
    ∀ answer earlier, reply = some answer → run.Returned earlier →
      earlier.origin.key = answer.origin.key →
      answer.source = earlier.source ∧ ledger'.asCache builtin = run.ledger.asCache builtin := by
  have hserved := resolve_served quoted builtin run.ledger roots specifier surroundings
  rw [hresult] at hserved
  cases hserved with
  | nothing failure => exact ⟨.inl rfl, nofun⟩
  | again hwithin hheld =>
    refine ⟨.inl rfl, ?_⟩
    rintro answer earlier hanswer hearlier hkey
    cases hanswer
    have hbefore := h.answer_mem hearlier
    rw [hkey, hheld] at hbefore
    exact ⟨Option.some.inj hbefore, rfl⟩
  | @new new _ hwithin hheld hsource htotal hmodules hlimits hcache =>
    obtain ⟨-, hrest⟩ := Prod.mk.inj h.limits
    obtain ⟨haggregate, -⟩ := Prod.mk.inj hrest
    have hbytes : ledger'.compileSourceBytes =
        saturatingAdd run.ledger.compileSourceBytes new.source.utf8ByteSize :=
      congrArg spent hcache
    refine ⟨.inr ?_, ?_⟩
    · have haggregate' : run.ledger.aggregateSourceMax = config.aggregateSourceMax := haggregate
      omega
    · rintro answer earlier hanswer hearlier hkey
      cases hanswer
      have hbefore := h.answer_mem hearlier
      -- a module that was returned before is held, so it is not new
      rw [hkey, hheld] at hbefore
      cases hbefore

/-- A recorded failure stays until it is taken. -/
lemma failure_stays {calls : List LedgerCall} (hcalls : .takeFailure ∉ calls)
    (h : run.ledger.failure = some failure) :
    (Lib.run (LedgerRun.step quoted builtin) run calls).ledger.failure = some failure := by
  refine run_invariant_mem (P := fun s : LedgerRun => s.ledger.failure = some failure) ?_ h
  intro run call hmem hfailure
  cases call with
  | takeFailure => exact absurd hmem hcalls
  | chargeEntryBytes bytes =>
    show (run.ledger.chargeEntryBytes bytes).1.failure = some failure
    unfold chargeEntryBytes
    dsimp only
    split <;> exact hfailure
  | resolve canonicalize roots specifier surroundings =>
    show (run.ledger.resolve _ _ _ _ _).1.failure = some failure
    rw [resolve_of_failure hfailure]
    exact hfailure

/-- Every sequence of calls on one ledger: what was charged, what was returned, and what a call may
do next. -/
theorem ledger_account (quoted : String → String) (builtin : String → Option String)
    (config : ResolverLedgerConfig) (hcount : config.importedModules ≤ config.modulesMax)
    (calls : List LedgerCall) :
    let run := Lib.run (LedgerRun.step quoted builtin) (.start config) calls
    run.ledger.compileSourceBytes = min (config.entryBytes + run.entryBytes +
      (run.distinct.map fun a => a.2.utf8ByteSize).sum) u64Max ∧
    run.ledger.importedModules = config.importedModules + run.distinct.length ∧
    run.ledger.importedModules ≤ config.modulesMax ∧
    (∀ answer, run.Returned answer → (answer.origin.key, answer.source) ∈ run.distinct ∧
      answer.source.utf8ByteSize ≤ config.perSourceMax) ∧
    (run.distinct.map Prod.fst).Nodup ∧
    (∀ entry ∈ run.replies, Confined entry) ∧
    (∀ canonicalize roots specifier surroundings,
      let next := run.ledger.perform quoted builtin
        (.resolve canonicalize roots specifier surroundings)
      (next.1.compileSourceBytes = run.ledger.compileSourceBytes ∨
        next.1.compileSourceBytes ≤ config.aggregateSourceMax) ∧
      ∀ answer earlier, next.2 = .resolved (some answer) → run.Returned earlier →
        earlier.origin.key = answer.origin.key →
        answer.source = earlier.source ∧
          next.1.compileSourceBytes = run.ledger.compileSourceBytes ∧
          next.1.importedModules = run.ledger.importedModules) ∧
    (∀ canonicalize roots specifier surroundings earlier, run.Returned earlier →
      run.ledger.failure = none → run.ledger.interrupted surroundings.entered = none →
      Requests builtin run.ledger (canonicalRoots canonicalize roots) specifier
        surroundings earlier.origin.key →
      ∃ answer : Resolved, answer.origin.key = earlier.origin.key ∧
        answer.source = earlier.source ∧
        run.ledger.perform quoted builtin (.resolve canonicalize roots specifier surroundings) =
          (run.ledger, .resolved (some answer))) ∧
    (∀ failure later, run.ledger.failure = some failure → .takeFailure ∉ later →
      let after := Lib.run (LedgerRun.step quoted builtin) run later
      after.ledger.failure = some failure ∧
      ∀ canonicalize roots specifier surroundings,
        after.ledger.perform quoted builtin (.resolve canonicalize roots specifier surroundings) =
          (after.ledger, .resolved none)) := by
  intro run
  have hsound : LedgerInv builtin config run := ledgerRun_sound hcount calls
  refine ⟨hsound.account.spent_eq, hsound.account.entries_eq, hsound.modules, ?_, nodup_firsts _,
    hsound.confined, ?_, ?_, ?_⟩
  · intro answer hanswer
    have hheld := hsound.answer_mem hanswer
    exact ⟨(hsound.account.held_iff _ _).mp hheld, hsound.sources _ _ hheld⟩
  · intro canonicalize roots specifier surroundings next
    obtain ⟨htotal, hagain⟩ := hsound.resolve_step
      (canonicalRoots canonicalize roots) specifier surroundings rfl
    refine ⟨htotal, ?_⟩
    intro answer earlier hreply hearlier hkey
    have hanswer := LedgerReply.resolved.inj hreply
    obtain ⟨hsource, hcache⟩ := hagain answer earlier hanswer hearlier hkey
    exact ⟨hsource, congrArg spent hcache, congrArg entries hcache⟩
  · intro canonicalize roots specifier surroundings earlier hearlier hfailure hentered hrequests
    obtain ⟨answer, hkey, hsource, hanswer⟩ := resolve_held quoted hfailure hentered
      hrequests (hsound.answer_mem hearlier)
    refine ⟨answer, hkey, hsource, ?_⟩
    simp only [perform, hanswer]
  · intro failure later hfailure hlater after
    have hkept : after.ledger.failure = some failure := failure_stays hlater hfailure
    refine ⟨hkept, ?_⟩
    intro canonicalize roots specifier surroundings
    simp only [perform, resolve_of_failure hkept]

/-- Ceilings for one small module. -/
def smallConfig : ResolverLedgerConfig where
  label := "script check"
  deadline := 100
  perSourceMax := 16
  aggregateSourceMax := 20
  entryBytes := 0
  importedModules := 0
  cancellation := false
  modulesMax := importModulesMax
  entryBytes_le := Nat.zero_le _

/-- One file, `/lib/x.qjs`. -/
def oneFile : FileSystem where
  canonicalize path := if path = ["", "lib", "x.qjs"] then some ["lib", "x.qjs"] else none
  metadata _ := .ok ⟨true, 3⟩
  read _ := .ok (.ok "x=1".toUTF8)

def undisturbed : Surroundings := ⟨⟨0, false⟩, fun _ => oneFile, ⟨1, false⟩⟩

/-- The entry, and one file under two specifiers. -/
def twoSpecifiers : List LedgerCall :=
  [.chargeEntryBytes 4, .resolve (fun _ => some ["lib"]) [["", "lib"]] "x" undisturbed,
    .resolve (fun _ => some ["lib"]) [["", "lib"]] "x.qjs" undisturbed]

theorem ledger_account_two_specifiers :
    let run := Lib.run (LedgerRun.step id fun _ => none) (.start smallConfig) twoSpecifiers
    run.distinct = [(.file ["lib", "x.qjs"], "x=1")] ∧ run.ledger.compileSourceBytes = 7 ∧
      run.ledger.importedModules = 1 ∧
      ∃ answer : Resolved, answer.source = "x=1" ∧
        run.ledger.perform id (fun _ => none)
            (.resolve (fun _ => some ["lib"]) [["", "lib"]] "x" undisturbed) =
          (run.ledger, .resolved (some answer)) := by
  intro run
  have hcalls := ledger_account id (fun _ => none) smallConfig (Nat.zero_le _) twoSpecifiers
  have hdistinct : run.distinct = [(.file ["lib", "x.qjs"], "x=1")] := by decide
  have hentry : run.entryBytes = 4 := by decide
  have hreturned : run.Returned ⟨.file ["lib", "x.qjs"] ["lib"], "x=1"⟩ :=
    ⟨_, mem_cons_of_mem _ mem_cons_self⟩
  refine ⟨hdistinct, hcalls.1.trans ?_, hcalls.2.1.trans ?_, ?_⟩
  · show min (0 + run.entryBytes + (run.distinct.map _).sum) u64Max = 7
    rw [hdistinct, hentry]
    decide
  · show 0 + run.distinct.length = 1
    rw [hdistinct]
    rfl
  · obtain ⟨answer, -, hsource, hanswer⟩ := hcalls.2.2.2.2.2.2.2.1 (fun _ => some ["lib"])
      [["", "lib"]] "x" undisturbed _ hreturned rfl rfl
      ⟨rfl, [], ["lib"], [], rfl, nofun, rfl, by decide⟩
    exact ⟨answer, hsource, hanswer⟩

/-- A ceiling that no number of bytes exceeds. -/
def unboundedConfig : ResolverLedgerConfig :=
  { smallConfig with aggregateSourceMax := u64Max }

/-- Two entries that are larger together than the counter can hold are charged with less. -/
theorem entries_beyond_counter :
    let run := Lib.run (LedgerRun.step id fun _ => none) (.start unboundedConfig)
      [.chargeEntryBytes u64Max, .chargeEntryBytes u64Max]
    unboundedConfig.importedModules ≤ unboundedConfig.modulesMax ∧
    run.ledger.compileSourceBytes ≠ unboundedConfig.entryBytes + run.entryBytes +
      (run.distinct.map fun a => a.2.utf8ByteSize).sum := by
  decide

end Agenterm.Qjswasm
