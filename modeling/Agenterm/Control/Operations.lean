import Agenterm.Control.Contract

/-!
# Commands and operations

What a command line is taken for: the canonical command (`commands.rs`), the typed operation it
belongs to (`operations.rs`), and the identity and fingerprint that a controlled request must
carry for it (`control_request_identity` and `control_payload_fingerprint` of the client).
-/

namespace Agenterm

/-! ## Command lines -/

/-- The value of an option; options end at `--`. -/
def optionValue (args : List String) (option : String) : Option String :=
  (((args.takeWhile fun argument => argument ≠ "--").findIdx? fun argument =>
    argument = option).bind fun position => args[position + 1]?).filter fun value =>
      value ≠ "--"

/-- `COMMAND_CATALOG`: each command with its aliases. -/
def commandCatalog : List (String × List String) :=
  [("acu", []), ("agent-tools", []), ("attach-session", ["attach"]),
    ("active-window", ["active-tab"]), ("capture-pane", ["capturep"]), ("capture-output", []),
    ("control-center", []), ("display-message", ["display"]), ("dump-cells", []),
    ("get-settings", []), ("has-session", ["has"]), ("inspect", []), ("focus", []),
    ("kill-server", ["server-kill"]), ("kill-session", []), ("kill-window", ["killw"]),
    ("list-tab-tree", []), ("list-commands", ["lscm"]), ("list-instances", []),
    ("list-panes", ["lsp"]), ("list-sessions", ["ls"]), ("list-windows", ["lsw"]),
    ("new-session", ["new"]), ("new-agent", []), ("new-window", ["neww"]),
    ("next-window", ["next"]), ("pane-snapshot", []), ("protocol-info", []), ("rh-pack", []),
    ("previous-window", ["prev"]), ("read-events", []), ("rename-session", ["rename"]),
    ("rename-window", ["renamew"]), ("screenshot", []), ("screenshot-pane", ["screenshot-tab"]),
    ("save-workspace", []), ("script", []), ("scroll-pane", []), ("select-window", ["selectw"]),
    ("send-keys", ["send"]), ("send-composer", []), ("send-mouse", []),
    ("signal-terminal-foreground", []), ("server-list", []), ("set-buffer", ["setb"]),
    ("set-setting", []), ("set-composer", []), ("set-tab-parent", []), ("set-tab-note", []),
    ("show-buffer", ["showb"]), ("show-composer", []), ("show-tab-parent", []),
    ("show-tab-note", []), ("show-options", ["show"]), ("load-buffer", ["loadb"]),
    ("list-buffers", ["lsb"]), ("delete-buffer", ["deleteb"]), ("paste-buffer", ["pasteb"]),
    ("shutdown", []), ("start-server", []), ("ui-action", []), ("ui-bootstrap", []),
    ("ui-client-state", []), ("ui-client-command", []), ("ui-deltas", []), ("ui-input", []),
    ("ui-hello", []), ("ui-interact", []), ("ui-lease", []), ("ui-snapshot", []),
    ("wait-pane", ["expect-pane"]), ("wait-events", []), ("wait-ui", []), ("workspace-info", [])]

/-- A command under its own name; unknown commands are kept. -/
def canonicalControlCommand (command : String) : String :=
  ((commandCatalog.find? fun identity =>
    identity.1 = command || identity.2.contains command).map Prod.fst).getD command

/-! ## Operations -/

inductive OperationClass where
  | observe
  | control
  | destructive
deriving DecidableEq

structure OperationSpec where
  id : String
  cls : OperationClass
deriving DecidableEq

def operationCatalog : List OperationSpec :=
  [⟨"control-center.open", .control⟩, ⟨"control-center.status", .observe⟩,
    ⟨"control-center.snapshot", .observe⟩, ⟨"control-center.close", .control⟩,
    ⟨"protocol.info", .observe⟩, ⟨"ui.snapshot", .observe⟩, ⟨"ui.hello", .observe⟩,
    ⟨"ui.bootstrap", .observe⟩, ⟨"ui.deltas", .observe⟩, ⟨"workspace.info", .observe⟩,
    ⟨"tabs.list", .observe⟩, ⟨"tabs.active", .observe⟩, ⟨"pane.capture", .observe⟩,
    ⟨"events.read", .observe⟩, ⟨"events.wait", .observe⟩, ⟨"ui.tabs.show", .control⟩,
    ⟨"ui.tabs.hide", .control⟩, ⟨"ui.tabs.toggle", .control⟩, ⟨"ui.tabs.set-width", .control⟩,
    ⟨"ui.tab.select", .control⟩, ⟨"ui.tab.new", .control⟩, ⟨"ui.tab.new-child", .control⟩,
    ⟨"ui.tab.close", .destructive⟩, ⟨"ui.tab.edit", .control⟩, ⟨"ui.tab.editor.save", .control⟩,
    ⟨"ui.tab.editor.cancel", .control⟩, ⟨"ui.tree.toggle", .control⟩,
    ⟨"ui.composer.send", .control⟩, ⟨"ui.input.pointer", .control⟩, ⟨"ui.input.wheel", .control⟩,
    ⟨"ui.input.key", .control⟩, ⟨"terminal.mouse", .control⟩, ⟨"ui.window.activate", .control⟩,
    ⟨"ui.window.maximize", .control⟩, ⟨"ui.window.minimize", .control⟩,
    ⟨"ui.window.restore", .control⟩, ⟨"ui.window.resize", .control⟩, ⟨"ui.window.close", .control⟩,
    ⟨"ui.font.increase", .control⟩, ⟨"ui.font.decrease", .control⟩, ⟨"ui.locale.toggle", .control⟩,
    ⟨"terminal.copy-selection", .control⟩, ⟨"ui.settings.open", .control⟩,
    ⟨"ui.settings.apply", .control⟩, ⟨"ui.settings.scope.defaults", .control⟩,
    ⟨"ui.settings.scope.current", .control⟩, ⟨"ui.settings.inherit.font", .control⟩,
    ⟨"ui.settings.inherit.size", .control⟩, ⟨"ui.settings.inherit.theme", .control⟩,
    ⟨"ui.settings.reset-overrides", .control⟩, ⟨"ui.settings.theme.dark", .control⟩,
    ⟨"ui.settings.theme.light", .control⟩, ⟨"ui.settings.preset.classic-day", .control⟩,
    ⟨"ui.settings.preset.classic-night", .control⟩, ⟨"ui.settings.preset.fancy-day", .control⟩,
    ⟨"ui.settings.preset.fancy-night", .control⟩, ⟨"ui.cwd-editor.open", .control⟩,
    ⟨"ui.cwd-editor.prepare", .control⟩, ⟨"ui.cwd-editor.prepare-append", .control⟩,
    ⟨"ui.cwd-editor.prepare-replace", .control⟩, ⟨"ui.cwd-editor.send-now", .control⟩,
    ⟨"ui.new-terminal.open", .control⟩, ⟨"ui.instance-picker.open", .control⟩,
    ⟨"ui.instance-picker.next", .control⟩, ⟨"ui.instance-picker.prev", .control⟩,
    ⟨"ui.instance-picker.select", .control⟩, ⟨"ui.instance-picker.confirm", .control⟩,
    ⟨"ui.instance-picker.cancel", .control⟩, ⟨"ui.server-strip.select", .control⟩,
    ⟨"ui.modal.confirm", .control⟩, ⟨"ui.modal.cancel", .control⟩,
    ⟨"ui.window-close.keep-server-running", .control⟩,
    ⟨"ui.window-close.stop-server-and-exit", .destructive⟩, ⟨"terminal.paste", .control⟩,
    ⟨"tabs.set-note", .control⟩, ⟨"server.kill", .destructive⟩,
    ⟨"workspace.shutdown", .destructive⟩]

def operationById (id : String) : Option OperationSpec :=
  operationCatalog.find? fun operation => operation.id = id

def isStableTabId (value : String) : Bool :=
  match value.toList with
  | '@' :: id => !id.isEmpty && id.all Char.isDigit
  | _ => false

def controlCenterOperations : List (String × String) :=
  [("open", "control-center.open"), ("status", "control-center.status"),
    ("snapshot", "control-center.snapshot"), ("close", "control-center.close")]

def uiInputOperations : List (String × String) :=
  [("pointer", "ui.input.pointer"), ("wheel", "ui.input.wheel"), ("key", "ui.input.key")]

def uiActionOperations : List (String × String) :=
  [("tabs-show", "ui.tabs.show"), ("tabs-hide", "ui.tabs.hide"), ("tabs-toggle", "ui.tabs.toggle"),
    ("toggle-tabs", "ui.tabs.toggle"), ("tabs-set-width", "ui.tabs.set-width"),
    ("window-activate", "ui.window.activate"), ("window-maximize", "ui.window.maximize"),
    ("window-minimize", "ui.window.minimize"), ("window-restore", "ui.window.restore"),
    ("window-resize", "ui.window.resize"), ("close-window", "ui.window.close"),
    ("font-increase", "ui.font.increase"), ("font-decrease", "ui.font.decrease"),
    ("toggle-locale", "ui.locale.toggle"), ("copy-selection", "terminal.copy-selection"),
    ("open-settings", "ui.settings.open"), ("settings-apply", "ui.settings.apply"),
    ("settings-defaults", "ui.settings.scope.defaults"),
    ("settings-current", "ui.settings.scope.current"),
    ("settings-font-toggle", "ui.settings.inherit.font"),
    ("settings-size-toggle", "ui.settings.inherit.size"),
    ("settings-theme-toggle", "ui.settings.inherit.theme"),
    ("settings-reset-overrides", "ui.settings.reset-overrides"),
    ("settings-theme-dark", "ui.settings.theme.dark"),
    ("settings-theme-light", "ui.settings.theme.light"),
    ("settings-preset-classic-day", "ui.settings.preset.classic-day"),
    ("settings-preset-classic-night", "ui.settings.preset.classic-night"),
    ("settings-preset-fancy-day", "ui.settings.preset.fancy-day"),
    ("settings-preset-fancy-night", "ui.settings.preset.fancy-night"),
    ("open-cwd-editor", "ui.cwd-editor.open"), ("cwd-prepare", "ui.cwd-editor.prepare"),
    ("cwd-prepare-append", "ui.cwd-editor.prepare-append"),
    ("cwd-prepare-replace", "ui.cwd-editor.prepare-replace"),
    ("cwd-send-now", "ui.cwd-editor.send-now"), ("open-new-terminal", "ui.new-terminal.open"),
    ("open-instance-picker", "ui.instance-picker.open"),
    ("instance-picker-next", "ui.instance-picker.next"),
    ("instance-picker-prev", "ui.instance-picker.prev"),
    ("instance-picker-select", "ui.instance-picker.select"),
    ("instance-picker-confirm", "ui.instance-picker.confirm"),
    ("instance-picker-cancel", "ui.instance-picker.cancel"),
    ("select-server-tab", "ui.server-strip.select"), ("open-instance", "ui.server-strip.select"),
    ("confirm", "ui.modal.confirm"), ("cancel", "ui.modal.cancel"),
    ("keep-server-running", "ui.window-close.keep-server-running"),
    ("stop-server-and-exit", "ui.window-close.stop-server-and-exit"),
    ("terminal-paste", "terminal.paste"), ("open-control-center", "control-center.open"),
    ("select-tab", "ui.tab.select"), ("new-tab", "ui.tab.new"), ("new-child", "ui.tab.new-child"),
    ("close-tab", "ui.tab.close"), ("edit-tab", "ui.tab.edit"),
    ("tab-editor-save", "ui.tab.editor.save"), ("tab-editor-cancel", "ui.tab.editor.cancel"),
    ("toggle-tree", "ui.tree.toggle"), ("composer-send", "ui.composer.send")]

/-- The commands that are one operation. -/
def commandOperations : List (String × String) :=
  [("protocol-info", "protocol.info"), ("ui-hello", "ui.hello"),
    ("ui-bootstrap", "ui.bootstrap"), ("ui-deltas", "ui.deltas"), ("ui-snapshot", "ui.snapshot"),
    ("read-events", "events.read"), ("wait-events", "events.wait"),
    ("kill-server", "server.kill"), ("server-kill", "server.kill"),
    ("shutdown", "workspace.shutdown"), ("send-mouse", "terminal.mouse")]

def operationError (code identity message : String) : String :=
  code ++ "[" ++ identity ++ "]: " ++ message

/-- The id that `operation_for_args` looks up. -/
def operationIdForArgs (args : List String) : Except String (Option String) :=
  match args with
  | [] => .ok none
  | head :: rest =>
    match canonicalControlCommand head with
    | "control-center" => .ok (rest.head?.bind fun name => controlCenterOperations.lookup name)
    | "set-tab-note" =>
      .ok (if (optionValue args "-t").any isStableTabId then some "tabs.set-note" else none)
    | "ui-input" => .ok (rest.head?.bind fun name => uiInputOperations.lookup name)
    | "ui-action" =>
      match rest.head? with
      | none => .ok none
      | some action =>
        match uiActionOperations.lookup action with
        | some id => .ok (some id)
        | none =>
          if action.startsWith "tabs-" then
            .error (operationError "operation_unknown" action "unknown typed Tabs action")
          else
            .ok none
    | command => .ok (commandOperations.lookup command)

def operationForArgs (args : List String) : Except String (Option OperationSpec) :=
  (operationIdForArgs args).map fun id => id.bind operationById

/-! ## Identity and fingerprint of a request -/

def validateIdentifier (field value : String) : Except String Unit :=
  if value.isEmpty then
    .error (field ++ " cannot be empty")
  else if value.utf8ByteSize > 128 then
    .error (field ++ " cannot exceed 128 bytes")
  else if !value.toList.all fun c =>
      c.isAlphanum || c = '.' || c = '_' || c = '-' || c = ':' then
    .error (field ++ " contains unsupported characters")
  else
    .ok ()

def OperationId.new (value : String) : Except String OperationId := do
  validateIdentifier "operation_id" value
  .ok ⟨value⟩

/-- The commands without an operation that only read. -/
def queryCommands : List String :=
  ["active-window", "capture-output", "capture-pane", "display-message", "dump-cells",
    "get-settings", "has-session", "inspect", "list-panes", "list-sessions", "list-tab-tree",
    "list-windows", "read-events", "show-composer", "show-options", "show-tab-note",
    "show-tab-parent", "workspace-info"]

/-- `str::replace` of every hyphen by a dot. -/
def dotted (command : String) : String :=
  String.ofList (command.toList.map fun c => if c = '-' then '.' else c)

def controlRequestIdentity (args : List String) : Except String (OperationId × RequestIntent) := do
  match ← operationForArgs args with
  | some operation =>
    let id ← OperationId.new operation.id
    .ok (id, if operation.cls = .observe then .query else .mutation)
  | none =>
    let command := canonicalControlCommand (args.head?.getD "unknown")
    let id ← OperationId.new ("command." ++ dotted command)
    .ok (id, if queryCommands.contains command then .query else .mutation)

def hexDigits (width n : Nat) : String :=
  String.ofList ((List.range width).map fun i => Nat.digitChar (n / 16 ^ (width - 1 - i) % 16))

/-- A character of a JSON string, as `serde_json` writes it. -/
def escapedChar (c : Char) : String :=
  match c.toNat with
  | 34 => "\\\""
  | 92 => "\\\\"
  | 8 => "\\b"
  | 9 => "\\t"
  | 10 => "\\n"
  | 12 => "\\f"
  | 13 => "\\r"
  | n => if n < 32 then "\\u" ++ hexDigits 4 n else c.toString

def quoted (s : String) : String := "\"" ++ String.join (s.toList.map escapedChar) ++ "\""

/-- `PayloadFingerprint::from_bytes`: the FNV-1a hash. -/
def PayloadFingerprint.fromBytes (payload : List UInt8) : PayloadFingerprint :=
  let hash := payload.foldl (fun hash byte => (hash ^^^ byte.toNat) * 0x100000001b3 % 2 ^ 64)
    0xcbf29ce484222325
  ⟨"fnv1a64:" ++ hexDigits 16 hash⟩

def controlPayloadFingerprint (args : List String) : PayloadFingerprint :=
  .fromBytes (("[" ++ ",".intercalate (args.map quoted) ++ "]").toList.flatMap
    String.utf8EncodeChar)

end Agenterm
