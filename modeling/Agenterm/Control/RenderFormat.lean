import Agenterm.Lib.Substitution
import Agenterm.Terminal.Tab

/-!
# The format of a listed tab

`render_format` of `control_dispatch.rs`: one pass over the text for each placeholder. A pass also
reads what the passes before it have put in, so that a title that looks like a placeholder, or that
makes one with the text next to it, is expanded.
-/

namespace Agenterm

open Lib List

def scrollbackLines : Nat := 10000

/-- The placeholders in the order of their passes, and what is put in their place. The command name
is a field of the tab that nothing else reads. -/
def formatPasses (tab : TerminalTab) (commandName sessionName : String) (active : Bool) :
    List (String × String) :=
  let dead := tab.exited.isSome
  [ ("#\x7b?pane_dead,dead,\x7d", if dead then "dead" else ""),
    ("#\x7b?window_active,*,\x7d", if active then "*" else ""),
    ("#{session_name}", sessionName),
    ("#{window_index}", toString tab.index),
    ("#{window_id}", "@" ++ toString tab.id),
    ("#{tab_parent_id}", (tab.parentId.map fun id => "@" ++ toString id).getD "root"),
    ("#{window_name}", tab.title),
    ("#{window_note}", tab.note),
    ("#{terminal_title}", tab.screen.title),
    ("#{window_active}", if active then "1" else "0"),
    ("#{pane_index}", "0"),
    ("#{pane_id}", "%" ++ toString tab.id),
    ("#{pane_dead}", if dead then "1" else "0"),
    ("#{pane_pid}", (tab.processId.map toString).getD ""),
    ("#{pane_current_command}", commandName),
    ("#{pane_start_command}", commandName),
    ("#{pane_input_bytes}", toString tab.inputBytes),
    ("#{pane_output_bytes}", toString tab.outputBytes),
    ("#{pane_error}", tab.error.getD ""),
    ("#{pane_width}", toString tab.lastSize.2),
    ("#{pane_height}", toString tab.lastSize.1),
    ("#{history_limit}", toString scrollbackLines),
    ("#I", toString tab.index),
    ("#W", tab.title),
    ("#S", sessionName),
    ("#P", "0") ]

def renderFormat (format : String) (tab : TerminalTab) (commandName sessionName : String)
    (active : Bool) : String :=
  (formatPasses tab commandName sessionName active).foldl
    (fun text pass => String.ofList (replaceAll pass.1.toList pass.2.toList text.toList)) format

/-! ## The passes as a table -/

section
variable (tab : TerminalTab) (commandName sessionName : String) (active : Bool)

/-- The passes on the characters. -/
def formatTable : List (List Char × List Char) :=
  (formatPasses tab commandName sessionName active).map fun pass => (pass.1.toList, pass.2.toList)

/-- The format with each of its own placeholders replaced by its value. -/
def substituted (format : String) : String :=
  String.ofList (substitute (formatTable tab commandName sessionName active) format.toList)

/-- What the passes look for does not depend on the tab. -/
def formatPlaceholders : List String :=
  ["#\x7b?pane_dead,dead,\x7d", "#\x7b?window_active,*,\x7d", "#{session_name}", "#{window_index}",
    "#{window_id}", "#{tab_parent_id}", "#{window_name}", "#{window_note}", "#{terminal_title}",
    "#{window_active}", "#{pane_index}", "#{pane_id}", "#{pane_dead}", "#{pane_pid}",
    "#{pane_current_command}", "#{pane_start_command}", "#{pane_input_bytes}",
    "#{pane_output_bytes}", "#{pane_error}", "#{pane_width}", "#{pane_height}", "#{history_limit}",
    "#I", "#W", "#S", "#P"]

lemma map_formatTable :
    (formatTable tab commandName sessionName active).map Prod.fst =
      formatPlaceholders.map String.toList := by
  simp only [formatTable, formatPasses, formatPlaceholders, map_cons, map_nil]

lemma isPlaceholder_formatTable :
    ∀ pass ∈ formatTable tab commandName sessionName active, IsPlaceholder '#' pass.1 := by
  have hall : (formatPlaceholders.map String.toList).all
      (fun pattern => decide (IsPlaceholder '#' pattern)) = true := by decide +kernel
  intro pass hpass
  have hmem := mem_map_of_mem (f := Prod.fst) hpass
  rw [map_formatTable] at hmem
  exact of_decide_eq_true (all_eq_true.mp hall _ hmem)

lemma renderFormat_eq_passes (format : String) :
    renderFormat format tab commandName sessionName active =
      String.ofList (passes (formatTable tab commandName sessionName active)
        (formatTable tab commandName sessionName active).length format.toList) := by
  unfold renderFormat passes formatTable
  rw [take_length, foldl_map]
  induction formatPasses tab commandName sessionName active generalizing format with
  | nil => exact (String.ofList_toList).symm
  | cons pass rest ih =>
    rw [foldl_cons, foldl_cons, ih, String.toList_ofList]

/-- The format is rendered literally, and no pass expands anything but the format's own placeholders,
exactly where no pass meets its placeholder in what earlier passes have put in or in text that they
have completed. -/
theorem renderFormat_literal_iff (tab : TerminalTab) (commandName sessionName : String)
    (active : Bool) (format : String) :
    let table := formatTable tab commandName sessionName active
    let template := parseFrom table 0 format.toList
    (renderFormat format tab commandName sessionName active =
        substituted tab commandName sessionName active format ∧
      ∀ k ≤ table.length, passes table k format.toList = stage table k template) ↔
    ∀ k pass, table[k]? = some pass →
      pass.2 = pass.1 ∨ ¬Foreign pass.1 (marked table k template) := by
  intro table template
  have hiff := passes_eq_iff
    (isPlaceholder_formatTable tab commandName sessionName active) format.toList
  rw [renderFormat_eq_passes, ← hiff]
  constructor
  · intro h
    exact h.2
  · intro h
    refine ⟨?_, h⟩
    rw [substituted, substitute, h _ (Nat.le_refl _)]

end

/-- A tab with a title that names the note. -/
def notedTab : TerminalTab :=
  { TerminalTab.spawn 1 0 none (some "#{window_note}") [] (24, 80)
      { program := "sh"
        commandName := "sh"
        processId := none
        shellKind := .bash
        cwd := { path := none, confirmedPath := none, source := .unknown, pending := false }
        proxy := { http := none, https := none, source := .off, applicationState := .off }
        proxyRedactionNeedles := []
        screen :=
          { title := "", rows := 24, columns := 80, cells := [], alternateScreen := false,
            applicationCursor := false, bracketedPaste := false, mouseProtocolMode := .none,
            mouseProtocolEncoding := .default, scrollback := 0, maxScrollback := 0, cursorRow := 0,
            cursorColumn := 0, hideCursor := false } } with
    note := "note" }

/-- The title is expanded to the note. -/
theorem title_expanded :
    renderFormat "#{window_name}" notedTab "sh" "main" true ≠
      substituted notedTab "sh" "main" true "#{window_name}" := by
  decide +kernel

end Agenterm
