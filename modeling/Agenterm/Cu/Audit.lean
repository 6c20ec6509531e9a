import Agenterm.Cu.Common
import Agenterm.Lib.LittleEndian
import Mathlib.Data.List.Infix

/-!
# Queries of the audit log

`query_at` of `audit.rs`: a page of the newest records of a file of JSON lines. A query reads a
window of bytes that ends at the end of the file or at the byte of a cursor, scans its lines from
the newest, and answers with the records that match, a `next_offset` within the window and a
`next_cursor` for the window before it.

What `serde_json` makes of a line and the SHA-256 of the identity of the file are parameters.
-/

namespace Agenterm.Cu.Audit

def defaultQueryMax : Nat := 200
def maxQueryMax : Nat := 5000
def defaultQueryScanMax : Nat := 10000
def maxQueryScanMax : Nat := 100000
def defaultQueryByteMax : Nat := 4 * 1024 * 1024
def maxQueryByteMax : Nat := 16 * 1024 * 1024

structure AuditQuery where
  requestId : Option String
  verb : Option String
  outcome : Option String
  sinceMs : Option Nat
  offset : Option Nat
  max : Option Nat
  scanMax : Option Nat
  byteMax : Option Nat
  cursor : Option String
deriving DecidableEq

structure AuditCursor where
  byteEnd : Nat
  identityDigest : List UInt8
deriving DecidableEq

/-- What `serde_json` makes of a line, and what the filter reads of an object. -/
structure AuditJson (Record : Type) where
  /-- The object that a line is, if it is one. -/
  parse : List UInt8 → Option Record
  requestId : Record → Option String
  verb : Record → Option String
  outcome : Record → Option String
  tsMs : Record → Option UInt64

/-- A regular file; its length is a `u64`. -/
structure AuditFile where
  filesystemId : UInt64
  objectId : UInt64
  bytes : List UInt8
  length_lt : bytes.length < 2 ^ 64

/-- The errors that opening, identifying, inspecting, seeking and reading the file fail with. -/
structure AuditIo where
  openFault : Option String
  identifyFault : Option String
  statFault : Option String
  seekFault : Option String
  readFault : Option String

/-- Nothing goes wrong. -/
def AuditIo.works : AuditIo := ⟨none, none, none, none, none⟩

structure AuditReply (Record : Type) where
  cursor : Option String
  offset : Nat
  max : Nat
  scanMax : Nat
  byteMax : Nat
  scanned : Nat
  scannedBytes : Nat
  matched : Nat
  returned : Nat
  malformed : Nat
  truncatedResults : Bool
  truncatedScan : Bool
  truncatedBytes : Bool
  complete : Bool
  nextOffset : Option Nat
  nextCursor : Option String
  truncated : Bool
  records : List Record

/-! ## Cursors -/

/-- The digits of a number in base sixteen, as many as asked for. -/
def base16 : Nat → Nat → List Nat
  | 0, _ => []
  | width + 1, n => base16 width (n / 16) ++ [n % 16]

/-- `format!("v1:{:016x}:{}", ...)`. -/
def encodeCursor (cursor : AuditCursor) : String :=
  "v1:" ++ String.ofList ((base16 16 cursor.byteEnd).map Nat.digitChar) ++ ":"
    ++ hexDigest cursor.identityDigest

/-- `char::to_digit(16)`. -/
def hexValue (c : Char) : Option Nat :=
  if c.isDigit then
    some (c.toNat - '0'.toNat)
  else if 'a' ≤ c ∧ c ≤ 'f' then
    some (c.toNat - 'a'.toNat + 10)
  else if 'A' ≤ c ∧ c ≤ 'F' then
    some (c.toNat - 'A'.toNat + 10)
  else
    none

/-- The number that digits in base sixteen denote. -/
def ofBase16 (digits : List Nat) : Nat := digits.foldl (fun value digit => value * 16 + digit) 0

/-- A number may be written with a plus sign. -/
def withoutPlus (text : List Char) : List Char := if text.head? = some '+' then text.tail else text

/-- `u64::from_str_radix(.., 16)`. -/
def fromHex (text : List Char) : Option Nat :=
  if (withoutPlus text).isEmpty then
    none
  else
    ((withoutPlus text).mapM hexValue).bind fun digits =>
      if ofBase16 digits < 2 ^ 64 then some (ofBase16 digits) else none

/-- The bytes that pairs of hexadecimal digits denote. -/
def bytesOfHex : List Char → Option (List UInt8)
  | [] => some []
  | [_] => none
  | high :: low :: rest => do
    let high ← hexValue high
    let low ← hexValue low
    let bytes ← bytesOfHex rest
    some (UInt8.ofNat (high * 16 + low) :: bytes)

def invalidInput (message : String) : CuError := { code := "invalid_input", message }

def invalidCursor : CuError :=
  invalidInput "--cursor must be an opaque audit cursor returned by audit-query"

/-- Missing fields do not parse either. -/
def parseCursor (value : String) : Except CuError AuditCursor :=
  match value.toList.splitOn ':' with
  | [version, byteEnd, digest] =>
    if version ≠ "v1".toList then
      .error invalidCursor
    else
      match fromHex byteEnd with
      | none => .error invalidCursor
      | some byteEnd =>
        if digest.length ≠ 64 then
          .error invalidCursor
        else
          match bytesOfHex digest with
          | none => .error invalidCursor
          | some identityDigest => .ok { byteEnd, identityDigest }
  | _ => .error invalidCursor

/-! ## Windows -/

def newline : UInt8 := 10

/-- The loop that cuts a window into lines: where each line starts, and its bytes. Empty lines are
left out. The arguments are the start of the line that is being read, what has been read of it, and
the rest of the window. -/
def linesOf : Nat → List UInt8 → List UInt8 → List (Nat × List UInt8)
  | start, line, [] => if line.isEmpty then [] else [(start, line)]
  | start, line, byte :: bytes =>
    if byte = newline then
      (if line.isEmpty then [] else [(start, line)])
        ++ linesOf (start + line.length + 1) [] bytes
    else
      linesOf start (line ++ [byte]) bytes

/-- What is left of a window that does not start the file: what comes after its first newline, and
where that starts. -/
def afterNewline (start : Nat) (bytes : List UInt8) : Nat × List UInt8 :=
  match bytes.findIdx? (· = newline) with
  | none => (start, [])
  | some boundary => (start + boundary + 1, bytes.drop (boundary + 1))

/-- The part of a file that a query reads. -/
structure Window where
  start : Nat
  /-- Where its first whole line starts. -/
  contentStart : Nat
  content : List UInt8

/-- The bytes before `stop`, at most `byteMax` of them, from the first whole line on. -/
def windowOf (bytes : List UInt8) (stop byteMax : Nat) : Window :=
  let readLen := min stop byteMax
  let start := stop - readLen
  let content := (bytes.drop start).take readLen
  let (contentStart, content) :=
    if start > 0 then afterNewline start content else (start, content)
  { start, contentStart, content }

/-- `u8::is_ascii_whitespace`. -/
def isAsciiWhitespace (byte : UInt8) : Bool :=
  byte == 0x20 || byte == 0x09 || byte == 0x0a || byte == 0x0c || byte == 0x0d

/-! ## Scans -/

section
variable {Record : Type} (json : AuditJson Record)

/-- The filter of a query. -/
def AuditQuery.accepts (query : AuditQuery) (value : Record) : Bool :=
  query.requestId.all (fun requestId => json.requestId value == some requestId)
    && query.verb.all (fun needle =>
      (json.verb value).any fun verb => decide (needle.toList <:+: verb.toList))
    && query.outcome.all (fun outcome => json.outcome value == some outcome)
    && query.sinceMs.all (fun since => (json.tsMs value).any fun ts => since ≤ ts.toNat)

structure Scan (Record : Type) where
  scanned : Nat
  matched : Nat
  malformed : Nat
  records : List Record
  truncatedScan : Bool
  oldestScannedStart : Option Nat

def Scan.empty (Record : Type) : Scan Record where
  scanned := 0
  matched := 0
  malformed := 0
  records := []
  truncatedScan := false
  oldestScannedStart := none

/-- The loop over the lines, newest first. -/
def scan (query : AuditQuery) (offset max scanMax : Nat) :
    List (Nat × List UInt8) → Scan Record → Scan Record
  | [], found => found
  | (start, line) :: lines, found =>
    if line.all isAsciiWhitespace then
      scan query offset max scanMax lines found
    else if found.scanned = scanMax then
      { found with truncatedScan := true }
    else
      let found :=
        { found with scanned := found.scanned + 1, oldestScannedStart := some start }
      match json.parse line with
      | none => scan query offset max scanMax lines { found with malformed := found.malformed + 1 }
      | some value =>
        if !query.accepts json value then
          scan query offset max scanMax lines found
        else
          let records :=
            if found.matched ≥ offset ∧ found.records.length < max then
              found.records ++ [value]
            else
              found.records
          scan query offset max scanMax lines
            { found with matched := found.matched + 1, records }

/-! ## Queries -/

/-- The `bounded` of the source. -/
def bounded (name : String) (value least greatest : Nat) : Except CuError Nat :=
  if value < least ∨ value > greatest then
    .error (invalidInput (name ++ " must be in " ++ toString least ++ "..=" ++ toString greatest
      ++ ", got " ++ toString value))
  else
    .ok value

def validRequestId (value : String) : Bool :=
  !value.isEmpty && value.utf8ByteSize ≤ 128
    && value.toList.all fun c => c.isAlphanum || c == '-' || c == '_' || c == '.' || c == ':'

def auditCursorStale (message : String) : CuError := { code := "audit_cursor_stale", message }

def unavailable (action : String) (fault : Option String) : Except CuError Unit :=
  match fault with
  | none => .ok ()
  | some error =>
    .error { code := "audit_unavailable", message := "could not " ++ action ++ ": " ++ error }

/-- The numbers of a query, with their defaults. -/
structure Limits where
  offset : Nat
  max : Nat
  scanMax : Nat
  byteMax : Nat

/-- The checks of a query before the file is opened. -/
def AuditQuery.limits (query : AuditQuery) : Except CuError Limits := do
  if query.requestId.any (fun requestId => !validRequestId requestId) then
    .error (invalidInput "--request-id-filter must be 1..=128 ASCII token bytes")
  else do
    let offset ← bounded "--offset" (query.offset.getD 0) 0 100000
    let max ← bounded "--max" (query.max.getD defaultQueryMax) 1 maxQueryMax
    let scanMax ← bounded "--scan-max" (query.scanMax.getD defaultQueryScanMax) 1 maxQueryScanMax
    let byteMax ← bounded "--byte-max" (query.byteMax.getD defaultQueryByteMax) 1024 maxQueryByteMax
    if query.outcome.any (fun outcome =>
        !(["attempt", "ok", "failed", "refused"].contains outcome)) then
      .error (invalidInput "--outcome must be attempt|ok|failed|refused")
    else
      .ok { offset, max, scanMax, byteMax }

def queryReply (query : AuditQuery) (limits : Limits) (found : Scan Record) (scannedBytes : Nat)
    (truncatedBytes : Bool) (nextCursor : Option String) : AuditReply Record :=
  let truncatedResults := decide (found.matched > limits.offset + found.records.length)
  let complete := !(truncatedResults || found.truncatedScan || truncatedBytes)
  { cursor := query.cursor
    offset := limits.offset
    max := limits.max
    scanMax := limits.scanMax
    byteMax := limits.byteMax
    scanned := found.scanned
    scannedBytes
    matched := found.matched
    returned := found.records.length
    malformed := found.malformed
    truncatedResults
    truncatedScan := found.truncatedScan
    truncatedBytes
    complete
    nextOffset := if truncatedResults then some (limits.offset + found.records.length) else none
    nextCursor
    truncated := !complete
    records := found.records }

variable (sha256 : List UInt8 → Fin 32 → UInt8)

def auditIdentityDigest (filesystemId objectId : UInt64) : List UInt8 :=
  List.ofFn (sha256 ("agenterm-cu-audit-cursor-v1".toUTF8.data.toList ++ [0]
    ++ Lib.leBytes 8 filesystemId.toNat ++ Lib.leBytes 8 objectId.toNat))

/-- The page of a window of a file. -/
def readWindow (query : AuditQuery) (limits : Limits) (bytes identityDigest : List UInt8)
    (stop : Nat) : AuditReply Record :=
  let window := windowOf bytes stop limits.byteMax
  let truncatedBytes := decide (window.start > 0)
  let found := scan json query limits.offset limits.max limits.scanMax
    (linesOf window.contentStart [] window.content).reverse (.empty Record)
  let nextEnd :=
    if found.truncatedScan then
      found.oldestScannedStart
    else if truncatedBytes then
      -- the first line crossed the start of the window and is left to the next one
      some (if window.contentStart < stop then window.contentStart else window.start)
    else
      none
  let nextCursor := nextEnd.map fun byteEnd => encodeCursor { byteEnd, identityDigest }
  queryReply query limits found window.content.length truncatedBytes nextCursor

/-- `query_at`. -/
def queryAt (io : AuditIo) (file : Option AuditFile) (query : AuditQuery) :
    Except CuError (AuditReply Record) := do
  let cursor ← match query.cursor with
    | none => .ok none
    | some value => (parseCursor value).map some
  let limits ← query.limits
  unavailable "open audit log" io.openFault
  match file with
  | none =>
    if cursor.isSome then
      .error (auditCursorStale "audit cursor no longer names the current audit file")
    else
      .ok (queryReply query limits (.empty Record) 0 false none)
  | some file => do
    unavailable "identify audit log" io.identifyFault
    let identityDigest := auditIdentityDigest sha256 file.filesystemId file.objectId
    if cursor.any (fun cursor => cursor.identityDigest ≠ identityDigest) then
      .error (auditCursorStale "audit cursor names an audit file that has been replaced")
    else do
      unavailable "stat audit log" io.statFault
      let stop := match cursor with
        | none => file.bytes.length
        | some cursor => cursor.byteEnd
      if stop > file.bytes.length then
        .error (auditCursorStale "audit cursor byte boundary is beyond the current audit file")
      else do
        unavailable "seek audit log" io.seekFault
        unavailable "read audit log" io.readFault
        .ok (readWindow json query limits file.bytes identityDigest stop)

end

end Agenterm.Cu.Audit
