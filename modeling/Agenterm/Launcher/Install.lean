import Agenterm.Lib.FileTree

/-!
# Installed versions and the pointer

`agenterm-launcher-core`, `install.rs`: a version is a directory of the root, and `current.json`
says which one is current. The file system is a tree without links, with the paths of Unix; what a
file holds is a pointer, as `serde_json` writes and reads it, or something else. A call of the file
system that could succeed may still fail, which the surroundings of a call (`Io`) say.
-/

namespace Agenterm.Launcher

open Lib (FileTree TreePath)

structure Pointer where
  current : String
  previous : Option String
deriving DecidableEq

/-- What a file holds. -/
inductive Content (β : Type) where
  | pointer (p : Pointer)
  /-- Bytes that are not the JSON of a pointer. -/
  | bytes (b : β)
deriving DecidableEq

abbrev Disk (β : Type) := FileTree (Content β)

def POINTER : String := "current.json"

def POINTER_TMP : String := ".current.json.tmp"

inductive InstallError where
  | notFound (message : String)
  | invalidData
  /-- Any other error of the file system. -/
  | io
deriving DecidableEq

/-- What the surroundings of one call do. -/
structure Io (β : Type) where
  createFails : Bool
  /-- `current.json` cannot be read. In `rollback` this is the second read. -/
  readFails : Bool
  /-- The temporary file cannot be written, and is left with this content or untouched. -/
  writeFails : Option (Option (Content β))
  renameFails : Bool

/-- Nothing gets in the way of a call. -/
def Io.works {β : Type} : Io β := ⟨false, false, none, false⟩

section
variable {β : Type} (root : TreePath)

def readPointer (readFails : Bool) (t : Disk β) : Except InstallError (Option Pointer) :=
  if readFails then .error .io
  else
    match t.node (root ++ [POINTER]) with
    | some (.file (.pointer p)) => .ok (some p)
    | some (.file (.bytes _)) => .error .invalidData
    | some .dir => .error .io
    | none => .ok none

/-- `fs::write` of the temporary file. -/
def writeTmp (io : Io β) (p : Pointer) (t : Disk β) : Except InstallError Unit × Disk β :=
  match io.writeFails with
  | some torn =>
    let left := torn.bind fun content => t.write root POINTER_TMP content
    (.error .io, left.getD t)
  | none =>
    match t.write root POINTER_TMP (.pointer p) with
    | none => (.error .io, t)
    | some t' => (.ok (), t')

def writePointer (io : Io β) (p : Pointer) (t : Disk β) : Except InstallError Unit × Disk β :=
  match writeTmp root io p t with
  | (.error e, t') => (.error e, t')
  | (.ok (), t') =>
    if io.renameFails then (.error .io, t')
    else
      match t'.rename (root ++ [POINTER_TMP]) root POINTER with
      | none => (.error .io, t')
      | some t'' => (.ok (), t'')

/-- `fs::rename` to a path whose directory and name are told apart. Nothing is moved to the top of
the file system. -/
def renameTo (t : Disk β) (src dest : TreePath) : Option (Disk β) :=
  match dest.getLast? with
  | none => none
  | some name => t.rename src dest.dropLast name

/-- Moves a staging directory into place as the directory of `version`, unless that exists. -/
def commitVersion (io : Io β) (staged : TreePath) (version : String) (t : Disk β) :
    Except InstallError TreePath × Disk β :=
  if io.createFails then (.error .io, t)
  else
    match t.createDirAll root with
    | none => (.error .io, t)
    | some made =>
      let dest := root.join version
      if made.exists? dest then (.ok dest, made)
      else if io.renameFails then (.error .io, made)
      else
        match renameTo made staged dest with
        | none => (.error .io, made)
        | some t' => (.ok dest, t')

/-- Points `current` at `version`, remembering the old one for rollback. -/
def activate (io : Io β) (version : String) (t : Disk β) : Except InstallError Pointer × Disk β :=
  if !t.isDir (root.join version) then
    (.error (.notFound s!"version {version} not installed"), t)
  else
    match readPointer root io.readFails t with
    | .error e => (.error e, t)
    | .ok old =>
      let p : Pointer := {
        current := version
        previous := (old.map (·.current)).filter (· ≠ version) }
      match writePointer root io p t with
      | (.error e, t') => (.error e, t')
      | (.ok (), t') => (.ok p, t')

/-- Swaps back to `previous`. -/
def rollback (readFails : Bool) (io : Io β) (t : Disk β) : Except InstallError Pointer × Disk β :=
  match readPointer root readFails t with
  | .error e => (.error e, t)
  | .ok none => (.error (.notFound "nothing installed"), t)
  | .ok (some p) =>
    match p.previous with
    | none => (.error (.notFound "no previous version"), t)
    | some previous => activate root io previous t

/-! ## A root over many calls -/

inductive Call (β : Type) where
  | commitVersion (io : Io β) (staged : TreePath) (version : String)
  | activate (io : Io β) (version : String)
  | rollback (readFails : Bool) (io : Io β)

/-- What a call gives back: the directory of a version, or the pointer that was written. -/
inductive Reply where
  | dir (path : TreePath)
  | pointer (p : Pointer)
deriving DecidableEq

def Call.answer (c : Call β) (t : Disk β) : Except InstallError Reply × Disk β :=
  match c with
  | .commitVersion io staged version =>
    let done := Launcher.commitVersion root io staged version t
    (done.1.map .dir, done.2)
  | .activate io version =>
    let done := Launcher.activate root io version t
    (done.1.map .pointer, done.2)
  | .rollback readFails io =>
    let done := Launcher.rollback root readFails io t
    (done.1.map .pointer, done.2)

/-- The root and what the calls on it came to. -/
structure Session (β : Type) where
  disk : Disk β
  /-- The versions that were committed or current. -/
  versions : List String
  /-- The versions that were made current, the latest first. -/
  history : List String

/-- Notes a successful call. -/
def Call.note (c : Call β) (reply : Except InstallError Reply) (s : Session β) : Session β :=
  match c, reply with
  | .commitVersion _ _ version, .ok (.dir _) => { s with versions := version :: s.versions }
  | _, .ok (.pointer p) =>
    { s with versions := p.current :: s.versions, history := p.current :: s.history }
  | _, _ => s

def Session.step (s : Session β) (c : Call β) : Session β :=
  c.note (c.answer root s.disk).1 { s with disk := (c.answer root s.disk).2 }

end

/-- The version that was current most recently among those different from the current one. -/
def lastOther : List String → Option String
  | [] => none
  | current :: earlier => earlier.find? (· ≠ current)

end Agenterm.Launcher
