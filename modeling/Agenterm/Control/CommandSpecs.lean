import Mathlib.Data.List.Basic

/-!
# Options of the commands

`control_command_spec` of `commands.rs`: the usage of every command, which of its options take a
value and which are flags, and whether its first positional word starts a child command.
-/

namespace Agenterm

structure ControlCommandSpec where
  usage : String
  valueOptions : List String
  flagOptions : List String
  childAtFirstPositional : Bool
deriving DecidableEq

/-- The commands, each with its other name. -/
def controlCommandSpecs : List (List String × ControlCommandSpec) :=
  [
    (["acu"],
      ⟨"agenterm cli acu [--timeout-ms N] [LEGACY-ACU-ARGS...]", [], [], true⟩),
    (["agent-tools"],
      ⟨"agenterm cli agent-tools [--format agenterm|mcp] [--include-unavailable]",
        ["--format"], ["--include-unavailable"], false⟩),
    (["attach", "attach-session"],
      ⟨"agenterm cli attach-session [-t session]", ["-t"], [], false⟩),
    (["active-window", "active-tab"],
      ⟨"agenterm cli active-window [-F format]", ["-F"], [], false⟩),
    (["capture-pane", "capturep"],
      ⟨"agenterm cli capture-pane (-p|--raw-escaped) [-t target] [--max-bytes N "
        ++ "--json]",
        ["-t", "--max-bytes"], ["-p", "--raw-escaped", "--json"], false⟩),
    (["capture-output"],
      ⟨"agenterm cli capture-output [-t target] [--cursor earliest|current|N] "
        ++ "[--max-bytes N]",
        ["-t", "--cursor", "--max-bytes"], [], false⟩),
    (["control-center"],
      ⟨"agenterm cli control-center open|status|snapshot|close [--no-activate]",
        [], ["--no-activate"], false⟩),
    (["display-message", "display"],
      ⟨"agenterm cli display-message [-p] [-t target] [format]", ["-t"], ["-p"], false⟩),
    (["dump-cells"],
      ⟨"agenterm cli dump-cells [-t target] [-r row]", ["-t", "-r"], [], false⟩),
    (["get-settings"],
      ⟨"agenterm cli get-settings", [], [], false⟩),
    (["has-session", "has"],
      ⟨"agenterm cli has-session [-t session]", ["-t"], [], false⟩),
    (["inspect", "pane-snapshot"],
      ⟨"agenterm cli inspect [-t target]", ["-t"], [], false⟩),
    (["focus"],
      ⟨"agenterm cli focus terminal|composer|sidebar [-t target]", ["-t"], [], false⟩),
    (["kill-server"],
      ⟨"agenterm cli kill-server", [], [], false⟩),
    (["kill-session"],
      ⟨"agenterm cli kill-session [-t session]", ["-t"], [], false⟩),
    (["kill-window", "killw"],
      ⟨"agenterm cli kill-window -t target", ["-t"], [], false⟩),
    (["signal-terminal-foreground"],
      ⟨"agenterm cli signal-terminal-foreground -t target --signal "
        ++ "interrupt|terminate|stop|continue --expect delivered|exited|stopped|running",
        ["-t", "--signal", "--expect"], [], false⟩),
    (["list-tab-tree"],
      ⟨"agenterm cli list-tab-tree [-F format]", ["-F"], [], false⟩),
    (["list-commands", "lscm"],
      ⟨"agenterm cli list-commands", [], [], false⟩),
    (["list-instances"],
      ⟨"agenterm cli list-instances [--json] [--prune]", [], ["--json", "--prune"], false⟩),
    (["list-panes", "lsp"],
      ⟨"agenterm cli list-panes [-a] [-t target] [-F format]", ["-t", "-F"], ["-a"], false⟩),
    (["list-sessions", "ls"],
      ⟨"agenterm cli list-sessions", [], [], false⟩),
    (["list-windows", "lsw"],
      ⟨"agenterm cli list-windows [-F format]", ["-F"], [], false⟩),
    (["new-session", "new"],
      ⟨"agenterm cli new-session [-s name] [-- command [args...]]",
        ["-n", "-s", "-t", "-c", "-F", "--parent", "-e", "--env", "--proxy", "--no-proxy",
         "--program"], ["-d", "-A", "-P", "-E"], true⟩),
    (["new-window", "neww"],
      ⟨"agenterm cli new-window [-d] [-n name] [--parent target] [-F format] [-e "
        ++ "NAME=VALUE] [-- command [args...]]",
        ["-n", "-s", "-t", "-c", "-F", "--parent", "-e", "--env", "--proxy", "--no-proxy",
         "--program"], ["-d", "-A", "-P", "-E"], true⟩),
    (["new-agent"],
      ⟨"agenterm cli new-agent [-d] [-n name] [--parent target] [--program exe] "
        ++ "[--proxy URL] [--yolo] [-- agent args...]",
        ["-n", "-s", "-t", "-c", "-F", "--parent", "-e", "--env", "--proxy", "--no-proxy",
         "--program"], ["-d", "-A", "-P", "-E", "--yolo"], false⟩),
    (["next-window", "next"],
      ⟨"agenterm cli next-window", [], [], false⟩),
    (["previous-window", "prev"],
      ⟨"agenterm cli previous-window", [], [], false⟩),
    (["protocol-info"],
      ⟨"agenterm cli protocol-info [--running] [--json] [--select PATHS]",
        ["--select"], ["--running", "--json"], false⟩),
    (["rh-pack"],
      ⟨"agenterm cli rh-pack --path PATH [--json]", ["--path"], ["--json"], false⟩),
    (["rename-session", "rename"],
      ⟨"agenterm cli rename-session new-name", [], [], false⟩),
    (["rename-window", "renamew"],
      ⟨"agenterm cli rename-window [-t target] new-name", ["-t"], [], false⟩),
    (["screenshot"],
      ⟨"agenterm cli screenshot [-o file.png]", ["-o"], [], false⟩),
    (["screenshot-pane", "screenshot-tab"],
      ⟨"agenterm cli screenshot-pane [-t target] [-o file.png]", ["-t", "-o"], [], false⟩),
    (["save-workspace"],
      ⟨"agenterm cli save-workspace", [], [], false⟩),
    (["script"],
      ⟨"agenterm cli script api [MODULE] [--status shipped|planned|all] "
        ++ "[--tree|--json] | check FILE|- [--profile local|tool] [--project-root DIR] | "
        ++ "eval EXPRESSION [--profile local|tool] | check-many --manifest FILE "
        ++ "[--project-root DIR] | corpus-scan [--dir DIR] [--project-root DIR] | hash "
        ++ "FILE [--profile local|tool] [--project-root DIR] | version | pack build FILE "
        ++ "--dir OUT [--max-source-bytes N] | pack load ARTIFACT [--max-source-bytes N] "
        ++ "| run-smoke ARTIFACT [--max-source-bytes N] | qualify FILE --dir OUT "
        ++ "[--max-source-bytes N] | repl [--fail-fast] [--json] | run [--profile "
        ++ "local|tool] [--exit-code-from-value] [--wasm-convention compiled-qjs|plain] "
        ++ "FILE|- [--wasm-entry-arg TYPE:VALUE]... [--cwd DIR] [--project-root DIR] [-- "
        ++ "ARGS...] | task list|show|run [TASK] [--manifest FILE] [--json]",
        ["--profile", "--timeout-ms", "--max-operations", "--max-expression-depth",
         "--max-collection-items", "--max-string-bytes", "--max-output-bytes",
         "--max-host-operations", "--fixed-clock-ms", "--env-allow", "--max-source-bytes",
         "--wasm-convention", "--wasm-entry-arg", "--cwd", "--project-root", "--manifest",
         "--dir", "--status"],
        ["--tree", "--json", "--fail-fast", "--exit-code-from-value"], false⟩),
    (["read-events"],
      ⟨"agenterm cli read-events --epoch EPOCH --after SEQUENCE [--limit COUNT]",
        ["--epoch", "--after", "--limit"], [], false⟩),
    (["scroll-pane"],
      ⟨"agenterm cli scroll-pane [-t target] up|down|page-up|page-down|top|bottom "
        ++ "[rows]",
        ["-t"], [], false⟩),
    (["select-window", "selectw"],
      ⟨"agenterm cli select-window (-t target|-n|-p)", ["-t"], ["-n", "-p"], false⟩),
    (["send-keys", "send"],
      ⟨"agenterm cli send-keys [-t target] [-l|--native] key...\nPowerShell: quote "
        ++ "targets as -t '@2' (unquoted @N is a splat).",
        ["-t"], ["-l", "--native", "-R", "-X"], false⟩),
    (["set-buffer", "setb"],
      ⟨"agenterm cli set-buffer [-b name] [--] data...", ["-b"], [], false⟩),
    (["load-buffer", "loadb"],
      ⟨"agenterm cli load-buffer [-b name] path", ["-b"], [], false⟩),
    (["show-buffer", "showb"],
      ⟨"agenterm cli show-buffer [-b name]", ["-b"], [], false⟩),
    (["list-buffers", "lsb"],
      ⟨"agenterm cli list-buffers", [], [], false⟩),
    (["delete-buffer", "deleteb"],
      ⟨"agenterm cli delete-buffer [-b name]", ["-b"], [], false⟩),
    (["paste-buffer", "pasteb"],
      ⟨"agenterm cli paste-buffer [-b name] [-t target]\nInjects buffer bytes into "
        ++ "the target pane PTY (not an agent mailbox).\nEmpty buffers fail; UTF-8 text "
        ++ "is normalized and respects bracketed-paste.\nCollab/status → note/handoff; "
        ++ "shell typing → send-keys/paste-buffer (see PRD_02_15 B′ vs agent messaging).",
        ["-b", "-t"], [], false⟩),
    (["save-buffer", "saveb"],
      ⟨"agenterm cli save-buffer is unsupported: use show-buffer or load-buffer", [], [], false⟩),
    (["send-composer"],
      ⟨"agenterm cli send-composer [-t target]", ["-t"], [], false⟩),
    (["send-mouse"],
      ⟨"agenterm cli send-mouse [-t target] -x col -y row [--button button] [--action "
        ++ "action] [--protocol protocol]",
        ["-t", "-x", "-y", "--button", "--action", "--protocol"], [], false⟩),
    (["server-kill"],
      ⟨"agenterm cli server-kill", [], [], false⟩),
    (["server-list"],
      ⟨"agenterm cli server-list [--json] [--prune] [--select PATHS]",
        ["--select"], ["--json", "--prune"], false⟩),
    (["set-setting"],
      ⟨"agenterm cli set-setting key value", [], [], false⟩),
    (["set-composer"],
      ⟨"agenterm cli set-composer [-t target] (text|--stdin|--file path)",
        ["-t", "--file"], ["--stdin"], false⟩),
    (["set-tab-parent"],
      ⟨"agenterm cli set-tab-parent -t child --parent parent|root", ["-t", "--parent"], [], false⟩),
    (["set-tab-note"],
      ⟨"agenterm cli set-tab-note [-t target] text", ["-t"], [], false⟩),
    (["show-composer"],
      ⟨"agenterm cli show-composer [-t target]", ["-t"], [], false⟩),
    (["show-options", "show"],
      ⟨"agenterm cli show-options", [], [], false⟩),
    (["show-tab-parent"],
      ⟨"agenterm cli show-tab-parent [-t target]", ["-t"], [], false⟩),
    (["show-tab-note"],
      ⟨"agenterm cli show-tab-note [-t target]", ["-t"], [], false⟩),
    (["shutdown"],
      ⟨"agenterm cli shutdown", [], [], false⟩),
    (["start-server"],
      ⟨"agenterm cli start-server", [], [], false⟩),
    (["ui-action"],
      ⟨"agenterm cli ui-action ACTION [-t target] [--path PATH] [--mode "
        ++ "empty|append|replace|attach|open-another] [--name NAME] [--pid N] [--stdin] "
        ++ "[--width PX --height PX]",
        ["-t", "--path", "--mode", "--name", "--logical-instance", "--pid", "--proxy-input",
         "--width", "--height"], ["--stdin"], false⟩),
    (["ui-bootstrap"],
      ⟨"agenterm cli ui-bootstrap [--select PATHS]", ["--select"], [], false⟩),
    (["ui-input"],
      ⟨"agenterm cli ui-input pointer --x PX --y PX [--button left|right|middle] "
        ++ "[--action press|release|move] [--count 1|2|3] [--mods shift,ctrl,alt,meta] | "
        ++ "ui-input wheel --x PX --y PX --delta-y N [--units lines|pixels] | ui-input "
        ++ "key --key NAME [--mods shift,ctrl,alt,meta]",
        ["--x", "--y", "--button", "--action", "--count", "--mods", "--delta-y", "--units",
         "--key"], [], false⟩),
    (["ui-client-state"],
      ⟨"agenterm cli ui-client-state publish --lease-id ID --client-pid PID "
        ++ "--snapshot-json JSON",
        ["--lease-id", "--client-pid", "--snapshot-json"], [], false⟩),
    (["ui-client-command"],
      ⟨"agenterm cli ui-client-command poll|apply|complete|result [--lease-id ID "
        ++ "--client-pid PID] [--command-id ID] [--response-json JSON]",
        ["--lease-id", "--client-pid", "--command-id", "--response-json", "--args-json"],
        ["--detach", "--shutdown-after-result"], false⟩),
    (["ui-deltas"],
      ⟨"agenterm cli ui-deltas --epoch EPOCH --after SEQUENCE [--limit 1..64] "
        ++ "[--select PATHS]",
        ["--epoch", "--after", "--limit", "--select"], [], false⟩),
    (["ui-hello"],
      ⟨"agenterm cli ui-hello --minimum VERSION --maximum VERSION [--client-id ID] "
        ++ "[--client-build-json JSON]",
        ["--minimum", "--maximum", "--client-id", "--client-build-json"], [], false⟩),
    (["ui-interact"],
      ⟨"agenterm cli ui-interact (select|input|resize) --lease-id ID --client-pid PID "
        ++ "-t @ID [--hex HEX|--rows ROWS --columns COLUMNS]",
        ["--lease-id", "--client-pid", "-t", "--hex", "--rows", "--columns"], [], false⟩),
    (["ui-lease"],
      ⟨"agenterm cli ui-lease (attach --client-id ID --client-pid "
        ++ "PID|heartbeat|acknowledge --sequence N|detach|status) [--lease-id ID "
        ++ "--client-pid PID] [--client-build-json JSON]",
        ["--client-id", "--client-pid", "--lease-id", "--sequence", "--client-build-json"],
        [], false⟩),
    (["ui-snapshot"],
      ⟨"agenterm cli ui-snapshot [--select PATHS]", ["--select"], [], false⟩),
    (["wait-pane", "expect-pane"],
      ⟨"agenterm cli wait-pane [-t target] (--contains "
        ++ "text|--dead|--submit-complete|--finalized) [--timeout-ms ms]",
        ["-t", "--contains", "--timeout-ms"],
        ["--dead", "--submit-complete", "--finalized"], false⟩),
    (["wait-events"],
      ⟨"agenterm cli wait-events --epoch EPOCH --after SEQUENCE --kind KIND [--tab "
        ++ "@ID] [--timeout-ms MS]",
        ["--epoch", "--after", "--kind", "--tab", "--timeout-ms"], [], false⟩),
    (["wait-ui"],
      ⟨"agenterm cli wait-ui [--active @id] [--focus surface] [-t target --tab-state "
        ++ "state] [--window-state state] [-t target --proxy-state state] [--client-width "
        ++ "PX --client-height PX] [--terminal-grid-changed-from ROWSxCOLS] [--modal-kind "
        ++ "KIND|none|closed] [--modal-target target] [-t target --tab-editor-state "
        ++ "open|closed] [--timeout-ms ms]",
        ["--active", "--focus", "-t", "--tab-state", "--proxy-state", "--window-state",
         "--client-width", "--client-height", "--terminal-grid-changed-from", "--modal-kind",
         "--modal-target", "--tab-editor-state", "--timeout-ms"], [], false⟩),
    (["workspace-info"],
      ⟨"agenterm cli workspace-info", [], [], false⟩) ]

def controlCommandSpec (command : String) : Option ControlCommandSpec :=
  (controlCommandSpecs.find? fun entry => entry.1.contains command).map Prod.snd

end Agenterm
