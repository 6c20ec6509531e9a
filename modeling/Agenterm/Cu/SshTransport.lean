import Agenterm.Cu.Common
import Agenterm.Lib.Keyed
import Agenterm.Lib.ShellWords
import Agenterm.Text

/-!
# The ssh transport

`ssh_transport.rs`, up to the arguments that `ssh` is started with. The environment of the host is
an argument; the request document is made elsewhere and is an argument too. `quoted` is the `{:?}`
form of a text and `lossy` the display of bytes that are not UTF-8.
-/

namespace Agenterm.Cu

open List

/-- An `OsString`: a text, or bytes that are not UTF-8. -/
inductive OsText where
  | text (text : String)
  | other (bytes : List UInt8)
deriving DecidableEq

/-- What the process finds in its environment. -/
structure HostEnvironment where
  varOs : String → Option OsText
  currentExe : Option OsText

/-- `std::env::var`, where only texts are values. -/
def HostEnvironment.var (host : HostEnvironment) (key : String) : Option String :=
  match host.varOs key with
  | some (.text value) => some value
  | _ => none

structure SshEndpoint where
  destination : String
  port : Option Nat
  identityFile : Option OsText
  remoteCu : OsText
  remoteEnv : List (String × String)
  connectTimeoutSecs : Nat
  insecureHostKey : Bool
  knownHostsFile : Option OsText

/-! ## The environment of the worker -/

def asciiLower (text : List Char) : List Char := text.map Char.toLower

/-- `is_reserved_authority_env`: by prefix, whatever the case. -/
def isReservedAuthorityEnv (key : List Char) : Bool :=
  ["AGENTERM_CU_GRANT", "AGENTERM_CU_AUTH"].any fun head =>
    asciiLower (key.take head.length) = asciiLower head.toList

def rejectReservedAuthorityEnv (key transport : String) : Except CuError Unit :=
  if isReservedAuthorityEnv key.toList then
    .error ⟨"invalid_authorization",
      transport ++ " worker environment cannot forward reserved authorization keys"⟩
  else .ok ()

/-- The variables that are forwarded when they have a value without whitespace. -/
def defaultKeys : List String :=
  ["DISPLAY", "WAYLAND_DISPLAY", "XDG_RUNTIME_DIR", "DBUS_SESSION_BUS_ADDRESS", "AT_SPI_BUS",
    "AT_SPI_BUS_ADDRESS", "LD_LIBRARY_PATH", "AGENTERM_ABI_LIB", "AGENTERM_CU_AUDIT_PATH", "HOME",
    "LANG", "LC_ALL"]

def defaultRemoteEnv (host : HostEnvironment) : List (String × String) :=
  defaultKeys.filterMap fun key =>
    match host.var key with
    | some value =>
      if value.toList ≠ [] ∧ !value.toList.any isWhitespace then some (key, value) else none
    | none => none

/-- `str::split_once('=')`. -/
def splitOnce (text : List Char) : Option (List Char × List Char) :=
  match text.dropWhile (· ≠ '=') with
  | [] => none
  | _ :: value => some (text.takeWhile (· ≠ '='), value)

def parseEnvPair (raw : List Char) : Option (String × String) :=
  match splitOnce (trim raw) with
  | some (key, value) =>
    if key.isEmpty then none else some (String.ofList key, String.ofList value)
  | none => none

def upsertEnv (env : List (String × String)) (key value : String) : List (String × String) :=
  if env.any (·.1 = key) then Lib.updateFirst (·.1 = key) (fun pair => (pair.1, value)) env
  else env ++ [(key, value)]

/-- One pair after the other, until a key is refused. -/
def forwardPairs (env : List (String × String)) :
    List (String × String) → Except CuError (List (String × String))
  | [] => .ok env
  | pair :: pairs => do
    rejectReservedAuthorityEnv pair.1 "ssh"
    forwardPairs (upsertEnv env pair.1 pair.2) pairs

/-- `AGENTERM_CU_SSH_ENV`: pairs separated by commas. -/
def forwardedPairs (host : HostEnvironment) : List (String × String) :=
  match host.var "AGENTERM_CU_SSH_ENV" with
  | some raw => (raw.toList.splitOn ',').filterMap parseEnvPair
  | none => []

def SshEndpoint.fromParts (host : HostEnvironment) (destination : String) (port : Option Nat)
    (identityFile remoteCu : Option OsText) (extraEnv : List (String × String)) :
    Except CuError SshEndpoint :=
  if trim destination.toList = [] then
    .error ⟨"invalid_input", "ssh target requires a non-empty --ssh <user@host> destination"⟩
  else do
    let forwarded ← forwardPairs (defaultRemoteEnv host) (forwardedPairs host)
    let remoteEnv ← forwardPairs forwarded extraEnv
    pure
      { destination := destination
        port := port <|>
          ((host.var "AGENTERM_CU_SSH_PORT").bind fun raw => parseUnsigned 65535 raw.toList)
        identityFile := identityFile <|> host.varOs "AGENTERM_CU_SSH_IDENTITY"
        remoteCu := (remoteCu <|> host.varOs "AGENTERM_CU_SSH_CU" <|> host.currentExe).getD
          (.text "agenterm-cu")
        remoteEnv := remoteEnv
        connectTimeoutSecs := ((host.var "AGENTERM_CU_SSH_CONNECT_TIMEOUT").bind fun raw =>
          parseUnsigned u64Max raw.toList).getD 15
        insecureHostKey := ["0", "false", "no", "off"].any fun off =>
          off.toList = asciiLower ((host.var "AGENTERM_CU_SSH_STRICT_HOSTKEY").getD "").toList
        knownHostsFile := host.varOs "AGENTERM_CU_SSH_KNOWN_HOSTS" }

/-! ## The arguments of `ssh` -/

section
variable (lossy : List UInt8 → String) (quoted : String → String)

def OsText.display : OsText → String
  | .text shown => shown
  | .other bytes => lossy bytes

def hostKeyArgs (endpoint : SshEndpoint) : List String :=
  if endpoint.insecureHostKey then
    ["-o", "StrictHostKeyChecking=no", "-o", "UserKnownHostsFile=/dev/null"]
  else
    match endpoint.knownHostsFile with
    | some path => ["-o", "StrictHostKeyChecking=accept-new",
        "-o", "UserKnownHostsFile=" ++ path.display lossy]
    | none => []

def portArgs (endpoint : SshEndpoint) : List String :=
  match endpoint.port with
  | some port => ["-p", toString port]
  | none => []

def identityArgs (endpoint : SshEndpoint) : List String :=
  match endpoint.identityFile with
  | some identity => ["-i", identity.display lossy, "-o", "IdentitiesOnly=yes"]
  | none => []

def sshPrefixArgs (endpoint : SshEndpoint) : List String :=
  ["-o", "BatchMode=yes", "-o", "ConnectTimeout=" ++ toString endpoint.connectTimeoutSecs] ++
    hostKeyArgs lossy endpoint ++ portArgs endpoint ++ identityArgs lossy endpoint ++
    [endpoint.destination]

/-- The check on one pair before it is an argument. -/
def checkPair (key value : String) : Except CuError Unit := do
  rejectReservedAuthorityEnv key "ssh"
  if key.toList = [] ∨ key.toList.contains '=' ∨ key.toList.any isWhitespace then
    .error ⟨"invalid_input", "ssh remote env key is invalid: " ++ quoted key⟩
  else if value.toList.any isWhitespace then
    .error ⟨"invalid_input", "ssh remote env value for " ++ key ++
      " must not contain whitespace (got " ++ quoted value ++ ")"⟩
  else .ok ()

def pairArgs : List (String × String) → Except CuError (List String)
  | [] => .ok []
  | (key, value) :: pairs => do
    checkPair quoted key value
    let rest ← pairArgs pairs
    pure ((key ++ "=" ++ value) :: rest)

/-- The command for the remote side, as separate arguments. -/
def remoteArgv (endpoint : SshEndpoint) (grant : String) : Except CuError (List String) := do
  let pairs ← pairArgs quoted endpoint.remoteEnv
  pure ("env" :: pairs ++
    [endpoint.remoteCu.display lossy, "exec", "--grant", grant, "--json", "-"])

/-- `run_remote` until `ssh` is spawned: its arguments. -/
def sshArgs (endpoint : SshEndpoint) (payload : Except CuError String) (grant : String) :
    Except CuError (List String) := do
  let _ ← payload
  if grant = "" then
    .error ⟨"refused", "ssh transport requires at least one grant on the host command"⟩
  else
    let remote ← remoteArgv lossy quoted endpoint grant
    pure (sshPrefixArgs lossy endpoint ++ remote)

end

/-! ## What becomes of the arguments -/

/-- Whether a cluster of option letters takes the next word as a value. -/
def wantsNext (takesValue : Char → Bool) : List Char → Bool
  | [] => false
  | [letter] => takesValue letter
  | letter :: letters => !takesValue letter && wantsNext takesValue letters

/-- The first word of `ssh` that is not an option or the value of one (`skip`), and the words
behind it. -/
def hostOperand (takesValue : Char → Bool) (skip : Bool) :
    List String → Option (String × List String)
  | [] => none
  | word :: words =>
    if skip then hostOperand takesValue false words
    else
      match word.toList with
      | ['-', '-'] => words.head?.map fun destination => (destination, words.tail)
      | '-' :: letter :: letters =>
        hostOperand takesValue (wantsNext takesValue (letter :: letters)) words
      | _ => some (word, words)

/-- The words of the command that the remote shell runs when the words are joined with spaces. -/
def remoteWords (words : List String) : Option (List String) :=
  (Lib.shellWords .plain none (Lib.joinWords (words.map String.toList))).map
    (·.map String.ofList)

/-- A word that `env` takes for an option where it stands in front of the operands. -/
def isEnvOption (word : String) : Bool := word.toList.head? = some '-'

/-- The names that `env` sets: those of the operands before the first without `=`. Nothing is said
of a call with an option, which may set names and bring words of its own (`-S`). -/
def envNames (words : List String) : Option (List (List Char)) :=
  if words.tail.head?.any isEnvOption then none
  else some (((words.map String.toList).tail.takeWhile (·.contains '=')).map
    (·.takeWhile (· ≠ '=')))

/-- The command that is meant to run on the remote side. -/
def intendedWords (endpoint : SshEndpoint) (grant : String) : List OsText :=
  .text "env" :: endpoint.remoteEnv.map (fun pair => .text (pair.1 ++ "=" ++ pair.2)) ++
    [endpoint.remoteCu, .text "exec", .text "--grant", .text grant, .text "--json", .text "-"]

/-- The destination is the host, and the remote side runs the intended command and nothing else,
with operands that set no reserved name. -/
def Delivered (takesValue : Char → Bool) (endpoint : SshEndpoint) (grant : String)
    (args : List String) : Prop :=
  ∃ rest words, hostOperand takesValue false args = some (endpoint.destination, rest) ∧
    remoteWords rest = some words ∧ words.map OsText.text = intendedWords endpoint grant ∧
    ∃ names, envNames words = some names ∧ ∀ name ∈ names, isReservedAuthorityEnv name = false

/-!
`hostOperand_args` says what `ssh` takes as the host, and `remoteWords_self_iff` which words the
remote shell reads back. `delivered_iff` is the main result: the endpoints whose command arrives as
it was meant.
-/

open Lib

/-! ## Characters -/

/-- The characters that a shell does not take as they are. -/
def shellSpecial : List Char :=
  [' ', '\t', '\n', '&', '|', ';', '<', '>', '(', ')', '$', '\u0060', '*', '?', '[', '\x00',
    '\'', '"', '\\']

lemma isOrdinary_of_notMem {c : Char} (h : c ∉ shellSpecial) : isOrdinary c = true := by
  simp only [shellSpecial, List.mem_cons, List.not_mem_nil, not_or] at h
  simp [isOrdinary, isBlank, isOperator, isExpansion, isQuote, h]

/-- The characters of a grant argument: words of lower-case letters, separated by commas. -/
def isGrantChar (c : Char) : Bool := c.isLower || c = ','

lemma inert_of_grant {grant : List Char} (hne : grant ≠ [])
    (h : ∀ c ∈ grant, isGrantChar c = true) : Inert grant where
  nonempty := hne
  ordinary c hmem := by
    have hnone : shellSpecial.all (fun special => !isGrantChar special) = true := by decide
    refine isOrdinary_of_notMem fun hspecial => ?_
    have hspecial := List.all_eq_true.mp hnone c hspecial
    rw [h c hmem] at hspecial
    cases hspecial
  start c hmem := by
    have hgrant := h c (List.mem_of_mem_head? hmem)
    refine decide_eq_true ⟨?_, ?_⟩ <;> rintro rfl <;> exact absurd hgrant (by decide)

/-! ## The host -/

section
variable {takesValue : Char → Bool} {lossy : List UInt8 → String} {quoted : String → String}

/-- A word that `ssh` reads as an option. -/
def isOptionWord (word : String) : Bool :=
  match word.toList with
  | '-' :: _ :: _ => true
  | _ => false

/-- The word that is taken for the host, and the words behind it, are at the end of the list. -/
lemma hostOperand_suffix {skip : Bool} {words : List String} {found : String × List String}
    (h : hostOperand takesValue skip words = some found) : found.1 :: found.2 <:+ words := by
  induction words generalizing skip with
  | nil => cases h
  | cons word words ih =>
    rw [hostOperand] at h
    split at h
    · exact (ih h).trans (List.suffix_cons word words)
    split at h
    · cases words with
      | nil => cases h
      | cons destination rest =>
        obtain rfl : (destination, rest) = found := Option.some.inj h
        exact List.suffix_cons word _
    · exact (ih h).trans (List.suffix_cons word words)
    · obtain rfl : (word, words) = found := Option.some.inj h
      exact List.suffix_refl _

lemma hostOperand_host {word : String} (h : isOptionWord word = false) (words : List String) :
    hostOperand takesValue false (word :: words) = some (word, words) := by
  rw [hostOperand, if_neg Bool.false_ne_true]
  unfold isOptionWord at h
  split
  · rename_i hword
    rw [hword] at h
    cases h
  · rename_i hword
    rw [hword] at h
    cases h
  · rfl

/-- Behind an option, the host is one of the other words. -/
lemma hostOperand_behind_option {word : String} (h : isOptionWord word = true)
    {words : List String} {found : String × List String}
    (hfound : hostOperand takesValue false (word :: words) = some found) :
    found.1 :: found.2 <:+ words := by
  rw [hostOperand, if_neg Bool.false_ne_true] at hfound
  unfold isOptionWord at h
  split at hfound
  · cases words with
    | nil => cases hfound
    | cons destination rest =>
      obtain rfl : (destination, rest) = found := Option.some.inj hfound
      exact List.suffix_refl _
  · exact hostOperand_suffix hfound
  · rename_i hdashes hdash
    split at h
    · rename_i letter letters hword
      exact absurd hword (hdash letter letters)
    · cases h

/-- An option with its value is passed over. -/
lemma hostOperand_option {letter : Char} (hletter : takesValue letter = true) (hne : letter ≠ '-')
    {option : String} (hoption : option.toList = ['-', letter]) (value : String)
    (words : List String) :
    hostOperand takesValue false (option :: value :: words) =
      hostOperand takesValue false words := by
  rw [hostOperand, if_neg Bool.false_ne_true]
  split
  · rename_i hword
    rw [hoption] at hword
    exact absurd (List.cons.inj (List.cons.inj hword).2).1 hne
  · rename_i letter' letters hword
    rw [hoption] at hword
    obtain ⟨rfl, rfl⟩ := List.cons.inj (List.cons.inj hword).2
    rw [show wantsNext takesValue [letter] = true from hletter]
    rfl
  · rename_i hdash
    exact absurd hoption (hdash letter [])

/-- The options that are always given are passed over. -/
theorem hostOperand_args (ho : takesValue 'o' = true) (hp : takesValue 'p' = true)
    (hi : takesValue 'i' = true) (endpoint : SshEndpoint) (remote : List String) :
    hostOperand takesValue false (sshPrefixArgs lossy endpoint ++ remote) =
      hostOperand takesValue false (endpoint.destination :: remote) := by
  have option_o := hostOperand_option ho (by decide) (show "-o".toList = ['-', 'o'] from rfl)
  have option_p := hostOperand_option hp (by decide) (show "-p".toList = ['-', 'p'] from rfl)
  have option_i := hostOperand_option hi (by decide) (show "-i".toList = ['-', 'i'] from rfl)
  unfold sshPrefixArgs
  simp only [List.cons_append, List.nil_append, List.append_assoc, option_o]
  have hidentity (words : List String) : hostOperand takesValue false
      (identityArgs lossy endpoint ++ words) = hostOperand takesValue false words := by
    unfold identityArgs
    split
    · simp only [List.cons_append, List.nil_append, option_i, option_o]
    · rfl
  have hport (words : List String) : hostOperand takesValue false
      (portArgs endpoint ++ words) = hostOperand takesValue false words := by
    unfold portArgs
    split
    · simp only [List.cons_append, List.nil_append, option_p]
    · rfl
  unfold hostKeyArgs
  split
  · simp only [List.cons_append, List.nil_append, option_o, hport, hidentity]
  split
  · simp only [List.cons_append, List.nil_append, option_o, hport, hidentity]
  · simp only [List.nil_append, hport, hidentity]

/-! ## The remote words -/

lemma map_toList_ofList (words : List (List Char)) :
    (words.map String.ofList).map String.toList = words := by
  rw [List.map_map]
  exact (List.map_congr_left fun word _ => String.toList_ofList).trans (List.map_id _)

lemma map_ofList_toList (words : List String) :
    (words.map String.toList).map String.ofList = words := by
  rw [List.map_map]
  exact (List.map_congr_left fun word _ => String.ofList_toList).trans (List.map_id _)

/-- Which words arrive as they are. -/
theorem remoteWords_self_iff (words : List String) :
    remoteWords words = some words ↔ ∀ word ∈ words, Inert word.toList := by
  have hiff := shellWords_join_iff (words.map String.toList)
  rw [List.forall_mem_map] at hiff
  rw [← hiff]
  unfold remoteWords
  constructor
  · intro h
    obtain ⟨read, hread, hwords⟩ := Option.map_eq_some_iff.mp h
    rw [hread, ← hwords, map_toList_ofList]
  · intro h
    rw [h, Option.map_some, map_ofList_toList]

/-- What arrives has no more characters than what was sent. -/
lemma visible_remoteWords {words read : List String} (h : remoteWords words = some read) :
    visible (read.map String.toList).flatten ≤ visible (words.map String.toList).flatten := by
  obtain ⟨chars, hchars, rfl⟩ := Option.map_eq_some_iff.mp h
  have hbound := visible_shellWords hchars
  rw [visible_joinWords] at hbound
  rw [map_toList_ofList]
  exact hbound.trans (Nat.le_of_eq (Nat.zero_add _))

/-! ## The arguments -/

lemma pairWord_toList (pair : String × String) :
    (pair.1 ++ "=" ++ pair.2).toList = pair.1.toList ++ '=' :: pair.2.toList := by
  rw [String.toList_append, String.toList_append, List.append_assoc]
  rfl

lemma checkPair_eq_ok {key value : String} (h : checkPair quoted key value = .ok ()) :
    '=' ∉ key.toList ∧ isReservedAuthorityEnv key.toList = false := by
  unfold checkPair rejectReservedAuthorityEnv at h
  rw [bind_unit_eq_ok] at h
  obtain ⟨hreserved, hkey⟩ := h
  constructor
  · intro hmem
    rw [if_pos] at hkey
    · cases hkey
    · exact .inr (.inl (List.contains_iff_mem.mpr hmem))
  · by_contra hname
    rw [Bool.not_eq_false] at hname
    rw [if_pos hname] at hreserved
    cases hreserved

/-- The pairs that become arguments have keys without `=` that are not reserved. -/
lemma pairArgs_eq_ok {pairs : List (String × String)} {words : List String}
    (h : pairArgs quoted pairs = .ok words) :
    words = pairs.map (fun pair => pair.1 ++ "=" ++ pair.2) ∧
      ∀ pair ∈ pairs, '=' ∉ pair.1.toList ∧ isReservedAuthorityEnv pair.1.toList = false := by
  induction pairs generalizing words with
  | nil =>
    obtain rfl : [] = words := Except.ok.inj h
    exact ⟨rfl, fun pair hmem => absurd hmem List.not_mem_nil⟩
  | cons pair pairs ih =>
    obtain ⟨key, value⟩ := pair
    rw [pairArgs, bind_unit_eq_ok, bind_eq_ok] at h
    obtain ⟨hpair, rest, hrest, hwords⟩ := h
    obtain rfl : _ = words := Except.ok.inj hwords
    obtain ⟨rfl, hkeys⟩ := ih hrest
    refine ⟨rfl, ?_⟩
    intro pair hmem
    rcases List.mem_cons.mp hmem with rfl | hmem
    · exact checkPair_eq_ok hpair
    · exact hkeys pair hmem

/-- The command as it is given to `ssh`. -/
def sentWords (lossy : List UInt8 → String) (endpoint : SshEndpoint) (grant : String) :
    List String :=
  "env" :: (endpoint.remoteEnv.map fun pair => pair.1 ++ "=" ++ pair.2) ++
    [endpoint.remoteCu.display lossy, "exec", "--grant", grant, "--json", "-"]

variable {endpoint : SshEndpoint} {grant : String}

lemma sshArgs_eq_ok {payload : Except CuError String} {args : List String}
    (h : sshArgs lossy quoted endpoint payload grant = .ok args) :
    args = sshPrefixArgs lossy endpoint ++ sentWords lossy endpoint grant ∧
      ∀ pair ∈ endpoint.remoteEnv,
        '=' ∉ pair.1.toList ∧ isReservedAuthorityEnv pair.1.toList = false := by
  rw [sshArgs, bind_eq_ok] at h
  obtain ⟨-, -, h⟩ := h
  split at h
  · cases h
  rw [bind_eq_ok] at h
  obtain ⟨remote, hremote, hargs⟩ := h
  obtain rfl : _ = args := Except.ok.inj hargs
  rw [remoteArgv, bind_eq_ok] at hremote
  obtain ⟨words, hwords, hremote⟩ := hremote
  obtain rfl : _ = remote := Except.ok.inj hremote
  obtain ⟨rfl, hkeys⟩ := pairArgs_eq_ok hwords
  exact ⟨rfl, hkeys⟩

variable (lossy) in
/-- The intended command is the one that is given to `ssh`, when the path is a text. -/
lemma map_text_eq_intended {words : List String} :
    words.map OsText.text = intendedWords endpoint grant ↔
      (∃ path, endpoint.remoteCu = .text path) ∧ words = sentWords lossy endpoint grant := by
  have hinj : Function.Injective OsText.text := fun a b => OsText.text.inj
  constructor
  · intro h
    have hpath : endpoint.remoteCu ∈ words.map OsText.text := by
      rw [h]
      exact mem_append_right _ mem_cons_self
    obtain ⟨path, -, hpath⟩ := mem_map.mp hpath
    refine ⟨⟨path, hpath.symm⟩, ?_⟩
    refine hinj.list_map ?_
    rw [h]
    simp [intendedWords, sentWords, ← hpath, OsText.display, Function.comp_def]
  · rintro ⟨⟨path, hpath⟩, rfl⟩
    simp [intendedWords, sentWords, hpath, OsText.display, Function.comp_def]

/-! ## The names that are set -/

lemma takeWhile_name (name rest : List Char) (h : '=' ∉ name) :
    (name ++ '=' :: rest).takeWhile (· ≠ '=') = name := by
  have hname : ∀ c ∈ name, decide (c ≠ '=') = true := by
    intro c hmem
    refine decide_eq_true ?_
    rintro rfl
    exact h hmem
  rw [takeWhile_append_of_pos hname]
  exact append_nil name

/-- What stands behind `env` in front of `exec`: the pairs and the path. -/
def SshEndpoint.operands (endpoint : SshEndpoint) (path : String) : List String :=
  (endpoint.remoteEnv.map fun pair => pair.1 ++ "=" ++ pair.2) ++ [path]

/-- The names of the pairs, and what stands before a `=` in the path. -/
lemma envNames_sentWords {path : String} (hpath : endpoint.remoteCu = .text path)
    (hkeys : ∀ pair ∈ endpoint.remoteEnv, '=' ∉ pair.1.toList) :
    envNames (sentWords lossy endpoint grant) =
      if (endpoint.operands path).head?.any isEnvOption then none
      else some (endpoint.remoteEnv.map (·.1.toList) ++
        if path.toList.contains '=' then [path.toList.takeWhile (· ≠ '=')] else []) := by
  have hpairs : ∀ word ∈ (endpoint.remoteEnv.map fun pair => pair.1 ++ "=" ++ pair.2).map
      String.toList, word.contains '=' = true := by
    intro word hmem
    obtain ⟨text, htext, rfl⟩ := mem_map.mp hmem
    obtain ⟨pair, -, rfl⟩ := mem_map.mp htext
    rw [pairWord_toList, contains_iff_mem]
    exact mem_append_right _ mem_cons_self
  have hfirst : (sentWords lossy endpoint grant).tail.head? = (endpoint.operands path).head? := by
    unfold sentWords SshEndpoint.operands
    rw [hpath]
    cases endpoint.remoteEnv <;> rfl
  unfold envNames
  rw [hfirst]
  congr 2
  unfold sentWords
  rw [hpath, cons_append, map_cons, tail_cons, map_append,
    takeWhile_append_of_pos hpairs, map_append]
  congr 1
  · rw [map_map, map_map]
    refine map_congr_left fun pair hmem => ?_
    show ((pair.1 ++ "=" ++ pair.2).toList).takeWhile (· ≠ '=') = pair.1.toList
    rw [pairWord_toList]
    exact takeWhile_name _ _ (hkeys pair hmem)
  · show ((path.toList :: "exec".toList :: _).takeWhile _).map _ = _
    rw [takeWhile_cons]
    split
    · rw [takeWhile_cons, if_neg (by decide)]
      rfl
    · rfl

/-! ## When the command arrives -/

/-- The destination is not an option of `ssh`, no word of the environment or the path has a
character that means something to the shell, the first of them is not an option of `env`, and the
path is not an assignment of a reserved name. -/
structure SshEndpoint.Plain (endpoint : SshEndpoint) : Prop where
  destination : isOptionWord endpoint.destination = false
  env : ∀ pair ∈ endpoint.remoteEnv, Inert (pair.1 ++ "=" ++ pair.2).toList
  path : ∃ path, endpoint.remoteCu = .text path ∧ Inert path.toList ∧
    (endpoint.operands path).head?.any isEnvOption = false ∧
    (path.toList.contains '=' = true →
      isReservedAuthorityEnv (path.toList.takeWhile (· ≠ '=')) = false)

/-- The words that are the same for every endpoint. -/
lemma inert_fixed : ∀ word ∈ ["env", "exec", "--grant", "--json", "-"], Inert word.toList := by
  intro word hmem
  have hordinary : ["env", "exec", "--grant", "--json", "-"].all (fun word =>
      !word.toList.isEmpty && word.toList.all isOrdinary && word.toList.head?.all isStart) =
        true := by decide
  exact .of_all (all_eq_true.mp hordinary word hmem)

lemma inert_sentWords {path : String} (hpath : endpoint.remoteCu = .text path)
    (hgrant : Inert grant.toList) :
    (∀ word ∈ sentWords lossy endpoint grant, Inert word.toList) ↔
      (∀ pair ∈ endpoint.remoteEnv, Inert (pair.1 ++ "=" ++ pair.2).toList) ∧
        Inert path.toList := by
  have hfixed := inert_fixed
  simp only [forall_mem_cons, not_mem_nil, IsEmpty.forall_iff, implies_true] at hfixed
  unfold sentWords
  rw [hpath]
  simp only [cons_append, forall_mem_cons, forall_mem_append, forall_mem_map,
    not_mem_nil, IsEmpty.forall_iff, implies_true, OsText.display, hfixed, hgrant, true_and,
    and_true]

/-- Nothing of the command is lost when all its words arrive, so none of them was taken by `ssh`. -/
lemma destination_of_delivered {rest : List String}
    (hhost : hostOperand takesValue false
      (endpoint.destination :: sentWords lossy endpoint grant) = some (endpoint.destination, rest))
    (hread : remoteWords rest = some (sentWords lossy endpoint grant)) :
    isOptionWord endpoint.destination = false := by
  by_contra hoption
  rw [Bool.not_eq_false] at hoption
  obtain ⟨before, hsuffix⟩ := hostOperand_behind_option hoption hhost
  have hbound := visible_remoteWords hread
  have hhead : sentWords lossy endpoint grant =
      "env" :: (sentWords lossy endpoint grant).tail := rfl
  -- the words behind the host leave out `env`
  have htail : ∃ front, (sentWords lossy endpoint grant).tail = front ++ rest := by
    cases before with
    | nil => exact ⟨[], (List.cons.inj (hsuffix.trans hhead)).2.symm⟩
    | cons first before =>
      refine ⟨before ++ [endpoint.destination], ?_⟩
      rw [append_assoc]
      exact (List.cons.inj (hsuffix.trans hhead)).2.symm
  obtain ⟨front, hfront⟩ := htail
  rw [hhead, hfront] at hbound
  simp only [map_cons, map_append, flatten_cons, flatten_append,
    visible_append] at hbound
  have henv : visible "env".toList = 3 := by decide
  omega

/-- Exactly for plain endpoints the remote side runs the intended command and nothing else. -/
theorem delivered_iff (ho : takesValue 'o' = true) (hp : takesValue 'p' = true)
    (hi : takesValue 'i' = true) {endpoint : SshEndpoint} {payload : Except CuError String}
    {grant : String}
    (hgrant : grant ≠ "" ∧ ∀ c ∈ grant.toList, isGrantChar c = true) {args : List String}
    (hargs : sshArgs lossy quoted endpoint payload grant = .ok args) :
    Delivered takesValue endpoint grant args ↔ endpoint.Plain := by
  obtain ⟨rfl, hkeys⟩ := sshArgs_eq_ok hargs
  have hgrantInert : Inert grant.toList := by
    refine inert_of_grant ?_ hgrant.2
    intro hempty
    exact hgrant.1 (String.toList_eq_nil_iff.mp hempty)
  unfold Delivered
  rw [hostOperand_args ho hp hi]
  constructor
  · rintro ⟨rest, words, hhost, hread, hwords, names, hnames, hreserved⟩
    obtain ⟨⟨path, hpath⟩, rfl⟩ := (map_text_eq_intended lossy).mp hwords
    have hdestination := destination_of_delivered hhost hread
    obtain rfl : sentWords lossy endpoint grant = rest := by
      rw [hostOperand_host hdestination] at hhost
      exact (Prod.mk.inj (Option.some.inj hhost)).2
    obtain ⟨henv, hinert⟩ := (inert_sentWords hpath hgrantInert).mp
      ((remoteWords_self_iff _).mp hread)
    rw [envNames_sentWords hpath fun pair hmem => (hkeys pair hmem).1] at hnames
    split at hnames
    · cases hnames
    rename_i hoperand
    cases hnames
    refine ⟨hdestination, henv, path, hpath, hinert, Bool.eq_false_iff.mpr hoperand, ?_⟩
    intro hassigns
    refine hreserved _ ?_
    rw [if_pos hassigns]
    exact mem_append_right _ mem_cons_self
  · rintro ⟨hdestination, henv, path, hpath, hinert, hoperand, hname⟩
    refine ⟨sentWords lossy endpoint grant, sentWords lossy endpoint grant,
      hostOperand_host hdestination _, ?_, ?_, ?_⟩
    · exact (remoteWords_self_iff _).mpr ((inert_sentWords hpath hgrantInert).mpr ⟨henv, hinert⟩)
    · exact (map_text_eq_intended lossy).mpr ⟨⟨path, hpath⟩, rfl⟩
    · rw [envNames_sentWords hpath fun pair hmem => (hkeys pair hmem).1, hoperand]
      refine ⟨_, rfl, ?_⟩
      intro name hmem
      rcases mem_append.mp hmem with hkey | hmem
      · obtain ⟨pair, hpair, rfl⟩ := mem_map.mp hkey
        exact (hkeys pair hpair).2
      · split at hmem
        · rename_i hassigns
          rw [mem_singleton.mp hmem]
          exact hname hassigns
        · exact absurd hmem not_mem_nil

end

/-- The options of `ssh` that take a value. -/
def sshTakesValue (letter : Char) : Bool := "BbcDEeFIiJLlmOopPQRSWw".toList.contains letter

/-- A host without any of the variables. -/
def bareHost : HostEnvironment := ⟨fun _ => none, none⟩

/-- What is made of one pair of the command line. -/
def onePair (value : String) : SshEndpoint where
  destination := "user@host"
  port := none
  identityFile := none
  remoteCu := .text "/cu"
  remoteEnv := [("X", value)]
  connectTimeoutSecs := 15
  insecureHostKey := false
  knownHostsFile := none

def onePairArgs (value : String) : List String :=
  ["-o", "BatchMode=yes", "-o", "ConnectTimeout=15", "user@host", "env", "X=" ++ value, "/cu",
    "exec", "--grant", "observe", "--json", "-"]

theorem delivered_iff_digit :
    SshEndpoint.fromParts bareHost "user@host" none none (some (.text "/cu")) [("X", "1")] =
      .ok (onePair "1") ∧
    (Delivered sshTakesValue (onePair "1") "observe" (onePairArgs "1") ↔ (onePair "1").Plain) ∧
    Delivered sshTakesValue (onePair "1") "observe" (onePairArgs "1") := by
  have hargs : sshArgs (fun _ => "") id (onePair "1") (.ok "{}") "observe" =
      .ok (onePairArgs "1") := rfl
  have hgrant : "observe".toList.all isGrantChar = true := by decide
  have hiff := delivered_iff (show sshTakesValue 'o' = true by decide) (by decide) (by decide)
    ⟨by decide, all_eq_true.mp hgrant⟩ hargs
  refine ⟨rfl, hiff, hiff.mpr ⟨by decide, ?_, "/cu", rfl, ?_, by decide, ?_⟩⟩
  · intro pair hmem
    rw [mem_singleton.mp hmem]
    exact .of_all (by decide)
  · exact .of_all (by decide)
  · decide

/-- A semicolon in a value passes every check and ends the remote command. -/
theorem separator_not_delivered :
    SshEndpoint.fromParts bareHost "user@host" none none (some (.text "/cu"))
      [("X", "1;reboot")] = .ok (onePair "1;reboot") ∧
    sshArgs (fun _ => "") id (onePair "1;reboot") (.ok "{}") "observe" =
      .ok (onePairArgs "1;reboot") ∧
    ¬ Delivered sshTakesValue (onePair "1;reboot") "observe" (onePairArgs "1;reboot") := by
  refine ⟨rfl, rfl, ?_⟩
  rintro ⟨rest, words, hhost, hread, -⟩
  have hrest : hostOperand sshTakesValue false (onePairArgs "1;reboot") = some ("user@host",
    (onePairArgs "1;reboot").drop 5) := by decide
  rw [hrest] at hhost
  rw [← (Prod.mk.inj (Option.some.inj hhost)).2] at hread
  have hnone : remoteWords ((onePairArgs "1;reboot").drop 5) = none := by decide
  rw [hnone] at hread
  cases hread

end Agenterm.Cu
