import Agenterm.Lib.PowerShellStrings
import Agenterm.Lib.ShellWords
import Agenterm.Server.Terminals
import Mathlib.Data.List.DropRight

/-!
# Commands for a shell

`working_context.rs` writes text that a shell will read: the command line that starts a child
(`shellCommandForChild`) and the one that changes its directory (`cwdCommand`). A POSIX shell reads
the words that were meant (`posix_words_kept`); PowerShell does unless a value has one of the quotes
that are not ASCII (`powershell_string_iff`).
-/

namespace Agenterm

open Lib List

/-- `ShellKind::from_program`, by the last component of the path. -/
def ShellKind.fromProgram (program : String) : ShellKind :=
  let name := String.ofList
    ((program.toList.rtakeWhile fun c => c ≠ '/' && c ≠ '\\').map Char.toLower)
  if ["cmd", "cmd.exe"].contains name then .cmd
  else if ["powershell", "powershell.exe", "pwsh", "pwsh.exe"].contains name then .powerShell
  else if ["bash", "bash.exe", "sh", "sh.exe", "zsh", "zsh.exe"].contains name then .bash
  else .unknown

def quoteForBash (value : String) : String := "'" ++ replaceQuote value "'\\''" ++ "'"

def quoteForPowershell (value : String) : String := "'" ++ replaceQuote value "''" ++ "'"

/-- What cmd cannot be given. -/
def cmdUnsafe (value : String) : Bool := value.toList.any fun c => c = '"' || c = '%' || c = '!'

/-- `segments.join(" ")`. -/
def joinSegments (segments : List String) : String := " ".intercalate segments

/-- `shell_command_for_child`: the program and its arguments. -/
def shellCommandForChild (shellProgram command : String) (arguments : List String) :
    Except String (List String) :=
  if command.isEmpty then .error "shell command cannot be empty"
  else
    match ShellKind.fromProgram shellProgram with
    | .cmd =>
      if cmdUnsafe command then
        .error "cmd shell argument contains a character that cannot be quoted safely"
      else if (command :: arguments).any cmdUnsafe then
        .error "cmd shell argument contains a character that cannot be quoted safely"
      else
        .ok ([shellProgram, "/d", "/s", "/c", command] ++ arguments)
    | .powerShell =>
      .ok [shellProgram, "-NoLogo", "-NoProfile", "-Command",
        joinSegments (command :: arguments.map quoteForPowershell)]
    | .bash | .unknown =>
      -- the command is a script: only what is appended is quoted
      .ok [shellProgram, "-lc", joinSegments (command :: arguments.map quoteForBash)]

/-! ## The characters of the texts -/

lemma toList_replaceQuote (value replacement : String) :
    (replaceQuote value replacement).toList =
      value.toList.flatMap fun c => if c = '\'' then replacement.toList else [c] := by
  rw [replaceQuote, String.toList_join, List.flatMap_map]
  congr 1
  funext c
  split
  · rfl
  · exact String.toList_singleton c

lemma toList_joinSegments (segments : List String) :
    (joinSegments segments).toList = Lib.joinWords (segments.map String.toList) :=
  String.toList_intercalate

lemma toList_quoteForBash (value : String) :
    (quoteForBash value).toList = Lib.quoted value.toList := by
  rw [quoteForBash, String.toList_append, String.toList_append, toList_replaceQuote]
  rfl

lemma toList_quoteForPowershell (value : String) :
    (quoteForPowershell value).toList = Lib.PowerShell.doubled value.toList := by
  rw [quoteForPowershell, String.toList_append, String.toList_append, toList_replaceQuote]
  rfl

/-- The text for a POSIX shell: the command as it is, and the arguments quoted. -/
lemma toList_posixText (command : String) (arguments : List String) :
    (joinSegments (command :: arguments.map quoteForBash)).toList =
      Lib.joinWords (command.toList :: (arguments.map String.toList).map Lib.quoted) := by
  rw [toList_joinSegments, List.map_cons, List.map_map, List.map_map]
  congr 2
  apply List.map_congr_left
  intro argument _
  exact toList_quoteForBash argument

/-! ## POSIX shells -/

section
variable {shellProgram command path : String} {arguments launched : List String}

lemma shellCommandForChild_posix
    (hkind : ShellKind.fromProgram shellProgram = .bash ∨
      ShellKind.fromProgram shellProgram = .unknown)
    (h : shellCommandForChild shellProgram command arguments = .ok launched) :
    launched = [shellProgram, "-lc", joinSegments (command :: arguments.map quoteForBash)] := by
  unfold shellCommandForChild at h
  split at h
  · cases h
  · rcases hkind with hkind | hkind
    all_goals
      rw [hkind] at h
      exact (Except.ok.inj h).symm

lemma cwdCommand_of_valid {shell : ShellKind} (h : validatePath path = .ok ()) :
    cwdCommand shell path = match shell with
      | .cmd =>
        if cmdUnsafe path then
          .error "cmd working directory contains a character that cannot be quoted safely"
        else
          .ok ("cd /d \"" ++ path ++ "\"")
      | .powerShell => .ok ("Set-Location -LiteralPath " ++ quoteForPowershell path)
      | .bash => .ok ("cd -- " ++ quoteForBash path)
      | .unknown => .error "the active shell is unknown" := by
  unfold cwdCommand
  rw [h]
  cases shell with
  | cmd => rfl
  | powerShell =>
    have hquote : "Set-Location -LiteralPath '" = "Set-Location -LiteralPath " ++ "'" := rfl
    show Except.ok ("Set-Location -LiteralPath '" ++ _ ++ "'") = Except.ok (_ ++ _)
    rw [hquote, quoteForPowershell]
    simp only [String.append_assoc]
  | bash =>
    have hquote : "cd -- '" = "cd -- " ++ "'" := rfl
    show Except.ok ("cd -- '" ++ _ ++ "'") = Except.ok (_ ++ _)
    rw [hquote, quoteForBash]
    simp only [String.append_assoc]
  | unknown => rfl

/-- A POSIX shell reads the words of the command, unless it ends in a quote or a comment, and each
argument as one word; and it reads a change of directory as three words. -/
theorem posix_words_kept :
    (∀ (shellProgram command : String) (arguments launched : List String),
      ShellKind.fromProgram shellProgram = .bash ∨
        ShellKind.fromProgram shellProgram = .unknown →
      shellCommandForChild shellProgram command arguments = .ok launched →
      ∃ text : String, launched = [shellProgram, "-lc", text] ∧
        (∀ (done : List (List Char)) (word : Option (List Char)),
          shellRun .plain none command.toList = some ⟨done, .plain, word⟩ →
          shellWords .plain none command.toList = some (done ++ word.toList) ∧
            shellWords .plain none text.toList =
              some (done ++ word.toList ++ arguments.map String.toList)) ∧
        (Inert command.toList →
          shellWords .plain none text.toList =
            some ((command :: arguments).map String.toList))) ∧
      ∀ path : String, validatePath path = .ok () →
        ∃ text : String, cwdCommand .bash path = .ok text ∧
          shellWords .plain none text.toList = some (["cd", "--", path].map String.toList) := by
  refine ⟨?_, ?_⟩
  · intro shellProgram command arguments launched hkind h
    have hread {done : List (List Char)} {word : Option (List Char)}
        (hrun : shellRun .plain none command.toList = some ⟨done, .plain, word⟩) :
        shellWords .plain none
            (joinSegments (command :: arguments.map quoteForBash)).toList =
          some (done ++ word.toList ++ arguments.map String.toList) := by
      rw [toList_posixText]
      exact shellWords_join_quoted _ hrun
    refine ⟨_, shellCommandForChild_posix hkind h, ?_, ?_⟩
    · intro done word hrun
      refine ⟨?_, hread hrun⟩
      -- the command without arguments
      have hend := shellWords_run [] hrun
      rw [append_nil] at hend
      exact hend
    · intro hinert
      exact hread (shellRun_inert hinert)
  · intro path hpath
    refine ⟨_, cwdCommand_of_valid hpath, ?_⟩
    have htext : ("cd -- " ++ quoteForBash path).toList =
        Lib.joinWords ("cd --".toList :: [path.toList].map Lib.quoted) := by
      rw [String.toList_append, toList_quoteForBash, Lib.joinWords_cons_flatMap]
      show "cd --".toList ++ ' ' :: Lib.quoted path.toList = _
      rw [map_singleton, flatMap_singleton]
    have hcd : shellRun .plain none "cd --".toList =
        some ⟨["cd".toList], .plain, some "--".toList⟩ := rfl
    rw [htext]
    exact shellWords_join_quoted [path.toList] hcd

/-- A program with two arguments, and a path with a quote. -/
theorem posix_words_kept_quote :
    (∃ text : String, shellCommandForChild "bash" "codex" ["a b", "O'Neil"] =
        .ok ["bash", "-lc", text] ∧
      shellWords .plain none text.toList =
        some (["codex", "a b", "O'Neil"].map String.toList)) ∧
      ∃ text : String, cwdCommand .bash "/tmp/O'Brien" = .ok text ∧
        shellWords .plain none text.toList =
          some (["cd", "--", "/tmp/O'Brien"].map String.toList) := by
  have hlaunched : shellCommandForChild "bash" "codex" ["a b", "O'Neil"] =
      .ok ["bash", "-lc", "codex 'a b' 'O'\\''Neil'"] := by decide
  obtain ⟨text, htext, -, hwords⟩ := posix_words_kept.1 "bash" "codex" ["a b", "O'Neil"] _
    (.inl (by decide)) hlaunched
  refine ⟨⟨text, by rw [hlaunched, htext], hwords (Inert.of_all (by decide))⟩, ?_⟩
  exact posix_words_kept.2 "/tmp/O'Brien" (by decide)

/-- The command is a script, not one word. -/
theorem script_command_split :
    shellCommandForChild "bash" "echo a" ["b"] = .ok ["bash", "-lc", "echo a 'b'"] ∧
      shellWords .plain none "echo a 'b'".toList = some (["echo", "a", "b"].map String.toList) ∧
      ["echo", "a", "b"].map String.toList ≠ ("echo a" :: ["b"]).map String.toList := by
  decide

/-! ## PowerShell -/

lemma shellCommandForChild_powershell
    (hkind : ShellKind.fromProgram shellProgram = .powerShell)
    (h : shellCommandForChild shellProgram command arguments = .ok launched) :
    launched = [shellProgram, "-NoLogo", "-NoProfile", "-Command",
      joinSegments (command :: arguments.map quoteForPowershell)] := by
  unfold shellCommandForChild at h
  split at h
  · cases h
  · rw [hkind] at h
    exact (Except.ok.inj h).symm

/-- PowerShell reads a quoted value as one string with that value, in any place where no quote
follows, exactly when the value has none of the quotes that are not ASCII; and arguments and paths
are put into the text so. -/
theorem powershell_string_iff (pairs : PowerShell.QuotePairs) (value : String)
    (after : List Char) (hafter : ∀ c ∈ after.head?, PowerShell.isSingleQuote c = false) :
    (PowerShell.readString pairs ((quoteForPowershell value).toList ++ after) =
        some (value.toList, after) ↔
      ∀ c ∈ value.toList, c ∉ PowerShell.smartQuotes) ∧
      (validatePath value = .ok () →
        cwdCommand .powerShell value =
          .ok ("Set-Location -LiteralPath " ++ quoteForPowershell value)) ∧
      ∀ (shellProgram command : String) (arguments launched : List String), value ∈ arguments →
        ShellKind.fromProgram shellProgram = .powerShell →
        shellCommandForChild shellProgram command arguments = .ok launched →
        launched = [shellProgram, "-NoLogo", "-NoProfile", "-Command",
          joinSegments (command :: arguments.map quoteForPowershell)] := by
  refine ⟨?_, cwdCommand_of_valid, ?_⟩
  · rw [toList_quoteForPowershell]
    exact PowerShell.read_doubled_iff hafter
  · intro shellProgram command arguments launched _ hkind h
    exact shellCommandForChild_powershell hkind h

/-- A path with the quote of ASCII. -/
theorem powershell_string_brien :
    PowerShell.readString .second ((quoteForPowershell "C:\\O'Brien").toList ++ [' ']) =
        some ("C:\\O'Brien".toList, [' ']) ∧
      cwdCommand .powerShell "C:\\O'Brien" =
        .ok ("Set-Location -LiteralPath " ++ quoteForPowershell "C:\\O'Brien") := by
  have hplain : ("C:\\O'Brien".toList.all fun c => !(PowerShell.smartQuotes.contains c)) =
      true := by
    decide
  have hafter : ∀ c ∈ [' '].head?, PowerShell.isSingleQuote c = false := by
    intro c hc
    rw [← Option.some.inj hc]
    decide
  obtain ⟨hread, hcommand, -⟩ := powershell_string_iff .second "C:\\O'Brien" [' '] hafter
  refine ⟨hread.mpr ?_, hcommand (by decide)⟩
  intro c hc hsmart
  have hkept := all_eq_true.mp hplain c hc
  rw [contains_iff_mem.mpr hsmart] at hkept
  exact absurd hkept (by decide)

/-- The right quote of a valid path ends the string, and what follows is read as a command. -/
theorem smart_quote_ends_string :
    validatePath "it\u2019;calc #" = .ok () ∧
      cwdCommand .powerShell "it\u2019;calc #" =
        .ok "Set-Location -LiteralPath 'it\u2019;calc #'" ∧
      PowerShell.readString .second (quoteForPowershell "it\u2019;calc #").toList =
        some ("it".toList, ";calc #'".toList) := by
  decide

end

end Agenterm
