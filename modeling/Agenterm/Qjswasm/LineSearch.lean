import Agenterm.Lib.Checks
import Agenterm.Lib.Lines
import Agenterm.Lib.Utf8
import Agenterm.Qjswasm.Host

/-!
# The bounded line search

`fs.read_lines_starting_with_lossy` of the tool door (`tool.rs`). The reads of the file, the cancel
flag and the clock are arguments. The scanner keeps what it found and where in a line it stands
(`Scan`), so that the answer does not depend on how the reads cut the file.
-/

namespace Agenterm.Qjswasm

open Lib List Utf8

def lineFeed : UInt8 := 10

def notUtf8Argument : String := "tool: arguments must be UTF-8 text"

def cancelledMark : String := "\x00agenterm-cancelled"

/-! ## Bounds -/

def checkedUsize (value : Int) (what : String) : Except String Nat :=
  if value < 0 then .error s!"tool: {what} must not be negative, got {value}" else .ok value.toNat

/-- `push_bounded`: nothing is appended past the ceiling. -/
def pushBounded (out bytes : List UInt8) (maxBytes : Nat) : Option (List UInt8) :=
  if maxBytes < out.length + bytes.length then none else some (out ++ bytes)

def scanDeadlineExceeded (elapsedMs : Nat) (maxScanMs : Int) : Bool :=
  if maxScanMs ≤ 0 then false else maxScanMs.toNat ≤ elapsedMs

/-- The loop of `bounded_lossy`: a replacement character is charged before it is appended. -/
def boundedLossyFrom (maxBytes : Nat) (out : String) (rest : List UInt8) : Except String String :=
  match _h : fromUtf8 rest with
  | .ok valid =>
    if maxBytes < out.utf8ByteSize + valid.utf8ByteSize then .error toolResultTooLarge
    else .ok (out ++ valid)
  | .error error =>
    match fromUtf8 (rest.take error.validUpTo) with
    | .error inner => .error ("tool: lossy decode: " ++ inner.text)
    | .ok valid =>
      if maxBytes < out.utf8ByteSize + valid.utf8ByteSize + 3 then .error toolResultTooLarge
      else
        match _hlength : error.errorLen with
        | none => .ok (out ++ valid ++ String.singleton replacement)
        | some length =>
          boundedLossyFrom maxBytes (out ++ valid ++ String.singleton replacement)
            (rest.drop (error.validUpTo + length))
termination_by rest.length
decreasing_by exact errorLen_pos _h _hlength

def boundedLossy (bytes : List UInt8) (maxBytes : Nat) : Except String String :=
  boundedLossyFrom maxBytes "" bytes

/-! ## The scanner -/

/-- What was collected, and where in a line the scanner stands. -/
structure Scan where
  output : List UInt8 := []
  atStart : Bool := true
  matched : Nat := 0
  collecting : Bool := false

variable {bytes : List UInt8} {s : Scan}

variable {byte : UInt8} {input left out : List UInt8}

section
variable (linePrefix : List UInt8) (maxOutput : Nat)

/-- One turn of the loop over a chunk: the scanner, and what is left of the chunk. -/
def Scan.turn (s : Scan) (byte : UInt8) (rest : List UInt8) : Except String (Scan × List UInt8) :=
  if s.collecting then
    match (byte :: rest).findIdx? (· == lineFeed) with
    | some offset =>
      match pushBounded s.output ((byte :: rest).take (offset + 1)) maxOutput with
      | none => .error toolResultTooLarge
      | some output =>
        .ok (⟨output, true, 0, false⟩, (byte :: rest).drop (offset + 1))
    | none =>
      match pushBounded s.output (byte :: rest) maxOutput with
      | none => .error toolResultTooLarge
      | some output => .ok ({ s with output := output }, [])
  else if s.atStart then
    if linePrefix.isEmpty then
      .ok ({ s with collecting := true, atStart := false, matched := 0 }, byte :: rest)
    else if linePrefix[s.matched]? = some byte then
      if s.matched + 1 = linePrefix.length then
        match pushBounded s.output linePrefix maxOutput with
        | none => .error toolResultTooLarge
        | some output => .ok (⟨output, false, 0, true⟩, rest)
      else .ok ({ s with matched := s.matched + 1 }, rest)
    else .ok ({ s with atStart := byte == lineFeed, matched := 0 }, rest)
  else
    match (byte :: rest).findIdx? (· == lineFeed) with
    | some offset =>
      .ok ({ s with atStart := true, matched := 0 }, (byte :: rest).drop (offset + 1))
    | none => .ok (s, [])

/-- A turn reads something, or starts to collect. -/
def Scan.measure (s : Scan) (chunk : List UInt8) : Nat :=
  2 * chunk.length + if s.collecting then 0 else 1

/-- Every turn makes the measure smaller. -/
lemma Scan.turn_measure {s' : Scan} {rest : List UInt8}
    (h : s.turn linePrefix maxOutput byte rest = .ok (s', left)) :
    s'.measure left < s.measure (byte :: rest) := by
  obtain ⟨output, atStart, matched, collecting⟩ := s
  have hdrop (n : Nat) : ((byte :: rest).drop (n + 1)).length ≤ rest.length := by
    rw [drop_succ_cons, length_drop]
    exact Nat.sub_le _ _
  have hless (s' : Scan) (left : List UInt8) (hleft : left.length ≤ rest.length) :
      s'.measure left < 2 * (byte :: rest).length := by
    unfold measure
    rw [length_cons]
    split <;> omega
  have hat (s' : Scan) : 2 * (byte :: rest).length ≤ s'.measure (byte :: rest) :=
    Nat.le_add_right _ _
  unfold turn at h
  split at h
  · split at h
    · split at h
      · cases h
      · cases h
        exact Nat.lt_of_lt_of_le (hless _ _ (hdrop _)) (hat _)
    · split at h
      · cases h
      · cases h
        exact Nat.lt_of_lt_of_le (hless _ _ (Nat.zero_le _)) (hat _)
  next hidle =>
    dsimp only at hidle
    split at h
    · split at h
      · -- nothing is read where every line is collected, but the scanner collects from here on
        cases h
        simp [measure, hidle]
      · split at h
        · split at h
          · split at h
            · cases h
            · cases h
              exact Nat.lt_of_lt_of_le (hless _ _ (Nat.le_refl _)) (hat _)
          · cases h
            exact Nat.lt_of_lt_of_le (hless _ _ (Nat.le_refl _)) (hat _)
        · cases h
          exact Nat.lt_of_lt_of_le (hless _ _ (Nat.le_refl _)) (hat _)
    · split at h
      · cases h
        exact Nat.lt_of_lt_of_le (hless _ _ (hdrop _)) (hat _)
      · cases h
        exact Nat.lt_of_lt_of_le (hless _ _ (Nat.zero_le _)) (hat _)

/-- The loop over a chunk. -/
def scanChunk (s : Scan) (chunk : List UInt8) : Except String Scan :=
  match chunk with
  | [] => .ok s
  | byte :: rest =>
    match _h : s.turn linePrefix maxOutput byte rest with
    | .error e => .error e
    | .ok (s', left) => scanChunk s' left
termination_by s.measure chunk
decreasing_by exact Scan.turn_measure linePrefix maxOutput _h

end

/-! ## The search -/

/-- A look at the cancel flag and the clock. -/
structure Look where
  cancelled : Bool
  elapsedMs : Nat

def Look.check (look : Look) (maxScanMs : Int) : Except String Unit :=
  if look.cancelled then .error cancelledMark
  else if scanDeadlineExceeded look.elapsedMs maxScanMs then
    .error s!"tool: fs.read_lines_starting_with_lossy exceeded max_scan_ms {maxScanMs}"
  else .ok ()

/-- A read of the file, with the looks before and after it. A read of nothing is the end. -/
structure ReadTurn where
  before : Look
  read : Except String (List UInt8)
  after : Look

/-- What the file answers: to the open, with the look after it, and to the reads. -/
structure SearchedFile where
  opened : Except String Unit
  look : Look
  reads : List ReadTurn

def fileError (path error : String) : String :=
  "fs.read_lines_starting_with_lossy `" ++ path ++ "`: " ++ error

section
variable (linePrefix : List UInt8) (maxOutput : Nat) (maxScanMs : Int) (path : String)

/-- The loop over the reads, which the end of the file ends. -/
def scanReads : Scan → List ReadTurn → Except String Scan
  | s, [] => .ok s
  | s, turn :: turns => do
    turn.before.check maxScanMs
    let chunk ← turn.read.mapError (fileError path)
    turn.after.check maxScanMs
    if chunk.isEmpty then .ok s
    else do
      let s ← scanChunk linePrefix maxOutput s chunk
      scanReads s turns

end

/-- `fs.read_lines_starting_with_lossy`, in a slot with the bound `maxResult` on results. -/
def readLinesStartingWithLossy (maxResult : Nat) (path linePrefix : List UInt8)
    (maxOutput maxScanMs : Int) (file : SearchedFile) : Except String String := do
  let path ← (fromUtf8 path).mapError fun _ => notUtf8Argument
  let maxOutput ← checkedUsize maxOutput "fs.read_lines_starting_with_lossy max_output_bytes"
  if maxScanMs < 0 then
    .error ("tool: fs.read_lines_starting_with_lossy "
      ++ s!"max_scan_ms must not be negative, got {maxScanMs}")
  else if linePrefix.contains lineFeed then
    .error "tool: fs.read_lines_starting_with_lossy prefix must not contain a newline"
  else if maxResult < maxOutput then .error toolResultTooLarge
  else do
    file.opened.mapError (fileError path)
    file.look.check maxScanMs
    let s ← scanReads linePrefix maxOutput maxScanMs path {} file.reads
    boundedLossy s.output maxOutput

/-!
What the scanner has, followed by what it will take of the input that is left (`Scan.pending`), does
not change with a turn of its loop. At the start of the file this is the selected lines, and at its
end what was collected.
-/

section
variable {linePrefix : List UInt8} {maxOutput : Nat}

/-! ## Decoding within a bound -/

lemma boundedLossyFrom_eq {maxBytes : Nat} (out : String) (rest : List UInt8)
    (hout : out.utf8ByteSize ≤ maxBytes) :
    boundedLossyFrom maxBytes out rest =
      if maxBytes < (out ++ fromUtf8Lossy rest).utf8ByteSize then .error toolResultTooLarge
      else .ok (out ++ fromUtf8Lossy rest) := by
  induction hlength : rest.length using Nat.strongRecOn generalizing out rest with
  | _ n ih =>
    have hreplacement : (String.singleton replacement).utf8ByteSize = 3 :=
      String.utf8ByteSize_singleton
    rw [boundedLossyFrom]
    split
    next valid hvalid => rw [fromUtf8_ok hvalid, String.utf8ByteSize_append]
    next error herror =>
      obtain ⟨valid, tail, hvalid, hlossy, hnone, hsome⟩ := fromUtf8_error herror
      rw [hvalid]
      dsimp only
      have hsize : (out ++ fromUtf8Lossy rest).utf8ByteSize =
          out.utf8ByteSize + valid.utf8ByteSize + 3 + tail.utf8ByteSize := by
        rw [hlossy]
        simp only [String.utf8ByteSize_append, hreplacement]
        omega
      split
      next hover => rw [if_pos (by omega)]
      next hroom =>
        have hgrown : (out ++ valid ++ String.singleton replacement).utf8ByteSize
            = out.utf8ByteSize + valid.utf8ByteSize + 3 := by
          simp only [String.utf8ByteSize_append, hreplacement]
        split
        next hlast =>
          rw [hlossy, hnone hlast, String.append_empty, ← String.append_assoc, if_neg (by omega)]
        next length hmore =>
          rw [ih _ (hlength ▸ errorLen_pos herror hmore) _ _ (by omega) rfl, ← hsome _ hmore,
            hlossy, ← String.append_assoc, ← String.append_assoc]

/-- The text of the bytes is built exactly where it fits. -/
theorem boundedLossy_eq (bytes : List UInt8) (maxBytes : Nat) :
    boundedLossy bytes maxBytes =
      if maxBytes < (fromUtf8Lossy bytes).utf8ByteSize then .error toolResultTooLarge
      else .ok (fromUtf8Lossy bytes) := by
  have h := boundedLossyFrom_eq "" bytes (Nat.zero_le maxBytes)
  rwa [String.empty_append] at h

/-! ## What the scanner will take -/

/-- What the scanner will take of the input that is left. -/
def Scan.pending (linePrefix : List UInt8) (s : Scan) (input : List UInt8) : List UInt8 :=
  if s.collecting then
    firstLine lineFeed input ++ selectLines lineFeed linePrefix (afterLine lineFeed input)
  else if s.atStart then
    selectLines lineFeed linePrefix (linePrefix.take s.matched ++ input)
  else selectLines lineFeed linePrefix (afterLine lineFeed input)

/-- The matched bytes are fewer than the prefix has. -/
def Scan.Partial (linePrefix : List UInt8) (s : Scan) : Prop :=
  linePrefix ≠ [] → s.matched < linePrefix.length

/-- A line that starts with the prefix is taken from its first byte. -/
lemma selectLines_of_prefix (hline : lineFeed ∉ linePrefix) (hne : linePrefix ++ input ≠ []) :
    selectLines lineFeed linePrefix (linePrefix ++ input) =
      linePrefix ++ (firstLine lineFeed input ++
        selectLines lineFeed linePrefix (afterLine lineFeed input)) := by
  rw [selectLines_eq _ hne, firstLine_append_of_not_mem hline,
    afterLine_append_of_not_mem hline, if_pos (List.isPrefixOf_iff_prefix.mpr (prefix_append _ _)), append_assoc]

/-- A line that leaves the prefix is not taken. -/
lemma selectLines_of_mismatch (hline : lineFeed ∉ linePrefix) {m : Nat}
    (hm : m < linePrefix.length) (hbyte : linePrefix[m]? ≠ some byte) :
    selectLines lineFeed linePrefix (linePrefix.take m ++ byte :: input) =
      selectLines lineFeed linePrefix (afterLine lineFeed (byte :: input)) := by
  have htake : lineFeed ∉ linePrefix.take m := fun hmem => hline (mem_of_mem_take hmem)
  have hlength : (linePrefix.take m).length = m := length_take_of_le hm.le
  have hfirst : ∃ more, firstLine lineFeed (byte :: input) = byte :: more := by
    unfold firstLine
    split <;> exact ⟨_, rfl⟩
  obtain ⟨more, hmore⟩ := hfirst
  rw [selectLines_eq _ (by simp), firstLine_append_of_not_mem htake,
    afterLine_append_of_not_mem htake, hmore, if_neg]
  · rfl
  · intro hstarts
    obtain ⟨after, hafter⟩ := isPrefixOf_iff_prefix.mp hstarts
    have hplace := congrArg (fun l => l[m]?) hafter
    rw [List.getElem?_append_left hm, List.getElem?_append_right hlength.le, hlength, Nat.sub_self]
      at hplace
    exact hbyte hplace

/-- What a turn of the loop leaves: what the scanner has and will take is the same. -/
structure Kept (linePrefix : List UInt8) (maxOutput : Nat) (s : Scan) (chunk : List UInt8)
    (s' : Scan) (left : List UInt8) : Prop where
  matched : s'.Partial linePrefix
  output : s'.output.length ≤ maxOutput
  same : ∀ more, s.output ++ s.pending linePrefix (chunk ++ more) =
    s'.output ++ s'.pending linePrefix (left ++ more)

lemma pushBounded_some {output : List UInt8} (h : pushBounded out bytes maxOutput = some output) :
    output = out ++ bytes ∧ output.length ≤ maxOutput := by
  unfold pushBounded at h
  split at h
  · cases h
  next hroom =>
    cases h
    rw [length_append]
    exact ⟨rfl, Nat.not_lt.mp hroom⟩

lemma pushBounded_none (h : pushBounded out bytes maxOutput = none) :
    maxOutput < (out ++ bytes).length := by
  unfold pushBounded at h
  split at h
  next hover =>
    rw [length_append]
    exact hover
  · cases h

/-- What a collecting scanner takes of a chunk, and what it goes on with. -/
lemma Scan.pending_collecting (hs : s.collecting = true) (input : List UInt8) :
    s.pending linePrefix input =
      firstLine lineFeed input ++ selectLines lineFeed linePrefix (afterLine lineFeed input) := by
  rw [pending, if_pos hs]

lemma Scan.pending_start (hs : s.collecting = false) (hstart : s.atStart = true)
    (input : List UInt8) :
    s.pending linePrefix input =
      selectLines lineFeed linePrefix (linePrefix.take s.matched ++ input) := by
  rw [pending, hs, if_neg Bool.false_ne_true, if_pos hstart]

lemma Scan.pending_skipping (hs : s.collecting = false) (hstart : s.atStart = false)
    (input : List UInt8) :
    s.pending linePrefix input = selectLines lineFeed linePrefix (afterLine lineFeed input) := by
  rw [pending, hs, if_neg Bool.false_ne_true, hstart, if_neg Bool.false_ne_true]

/-- What comes of the loop, from a scanner with some input left. -/
def SearchOutcome (linePrefix : List UInt8) (maxOutput : Nat) (s : Scan) (chunk : List UInt8) :
    Except String (Scan × List UInt8) → Prop
  | .ok (s', left) => Kept linePrefix maxOutput s chunk s' left
  | .error e => e = toolResultTooLarge ∧ ∀ more,
    maxOutput < (s.output ++ s.pending linePrefix (chunk ++ more)).length

/-- A push of what the scanner takes next. -/
lemma outcome_push (s' : Scan) {chunk : List UInt8} (hheld : s'.Partial linePrefix)
    (hpending : ∀ more, s.pending linePrefix (chunk ++ more) =
      bytes ++ s'.pending linePrefix (left ++ more)) :
    SearchOutcome linePrefix maxOutput s chunk
      (match pushBounded s.output bytes maxOutput with
        | none => .error toolResultTooLarge
        | some output => .ok ({ s' with output := output }, left)) := by
  split
  next hnone =>
    refine ⟨rfl, fun more => ?_⟩
    have hover := pushBounded_none hnone
    rw [hpending, ← append_assoc, length_append]
    omega
  next output hsome =>
    obtain ⟨rfl, hroom⟩ := pushBounded_some hsome
    refine ⟨hheld, hroom, fun more => ?_⟩
    rw [hpending, ← append_assoc]
    rfl

/-- A turn of the loop keeps to the ceiling, or the lines of the file pass it. -/
theorem Scan.turn_outcome (hline : lineFeed ∉ linePrefix) (hs : s.Partial linePrefix)
    (houtput : s.output.length ≤ maxOutput) (byte : UInt8) (rest : List UInt8) :
    SearchOutcome linePrefix maxOutput s (byte :: rest) (s.turn linePrefix maxOutput byte rest) := by
  have hreset (output : List UInt8) (atStart collecting : Bool) :
      Scan.Partial linePrefix ⟨output, atStart, 0, collecting⟩ := length_pos_of_ne_nil
  unfold turn
  split
  next hcollecting =>
    split
    next offset hends =>
      -- the line ends in the chunk
      refine outcome_push ⟨s.output, true, 0, false⟩ (hreset _ _ _) fun more => ?_
      obtain ⟨hfirst, hafter⟩ := lines_of_findIdx? hends more
      rw [pending_collecting hcollecting, hfirst, hafter, pending_start rfl rfl, take_zero,
        nil_append]
    next hopen =>
      refine outcome_push s hs fun more => ?_
      have hnot := not_mem_of_findIdx? hopen
      rw [pending_collecting hcollecting, firstLine_append_of_not_mem hnot,
        afterLine_append_of_not_mem hnot, pending_collecting hcollecting, append_assoc,
        nil_append]
  next hidle =>
    have hcollecting : s.collecting = false := by rwa [Bool.not_eq_true] at hidle
    split
    next hstart =>
      split
      next hempty =>
        -- every line starts with the empty prefix
        rw [List.isEmpty_iff] at hempty
        refine ⟨hreset _ _ _, houtput, fun more => ?_⟩
        have hne : byte :: rest ++ more ≠ [] := List.cons_ne_nil _ _
        rw [pending_start hcollecting hstart, pending_collecting rfl, hempty, take_nil,
          nil_append, selectLines_eq _ hne, if_pos isPrefixOf_nil_left]
      next hnonempty =>
        rw [List.isEmpty_iff] at hnonempty
        have hm := hs hnonempty
        split
        next hbyte =>
          have htake : linePrefix.take (s.matched + 1) = linePrefix.take s.matched ++ [byte] := by
            rw [take_add_one, hbyte]
            rfl
          split
          next hcomplete =>
            refine outcome_push ⟨s.output, false, 0, true⟩ (hreset _ _ _) fun more => ?_
            have hwhole : linePrefix.take s.matched ++ (byte :: rest ++ more)
                = linePrefix ++ (rest ++ more) := by
              rw [cons_append, append_cons, ← htake, hcomplete, take_length]
            have hne : linePrefix ++ (rest ++ more) ≠ [] :=
              fun h => hnonempty (append_eq_nil_iff.mp h).1
            rw [pending_start hcollecting hstart, hwhole, selectLines_of_prefix hline hne,
              pending_collecting rfl]
          next hmore =>
            refine ⟨fun _ => ?_, houtput, fun more => ?_⟩
            · show s.matched + 1 < linePrefix.length
              omega
            · rw [pending_start hcollecting hstart,
                pending_start (s := { s with matched := s.matched + 1 }) hcollecting hstart, htake,
                append_assoc]
              rfl
        next hbyte =>
          refine ⟨hreset _ _ _, houtput, fun more => ?_⟩
          rw [pending_start hcollecting hstart, cons_append,
            selectLines_of_mismatch hline hm hbyte]
          by_cases hends : byte = lineFeed
          · rw [pending_start (s := ⟨_, _, 0, _⟩) hcollecting (beq_iff_eq.mpr hends), afterLine,
              if_pos hends, take_zero, nil_append]
          · rw [pending_skipping (s := ⟨_, _, 0, _⟩) hcollecting (beq_eq_false_iff_ne.mpr hends),
              afterLine, if_neg hends]
    next hskipping =>
      have hstart : s.atStart = false := by rwa [Bool.not_eq_true] at hskipping
      split
      next offset hends =>
        refine ⟨hreset _ _ _, houtput, fun more => ?_⟩
        rw [pending_skipping hcollecting hstart, (lines_of_findIdx? hends more).2,
          pending_start (s := ⟨_, true, 0, _⟩) hcollecting rfl, take_zero, nil_append]
      next hopen =>
        refine ⟨hs, houtput, fun more => ?_⟩
        rw [pending_skipping hcollecting hstart,
          afterLine_append_of_not_mem (not_mem_of_findIdx? hopen),
          pending_skipping hcollecting hstart, nil_append]

/-! ## Runs -/

/-- The loop over a chunk. -/
theorem scanChunk_outcome (hline : lineFeed ∉ linePrefix) (hs : s.Partial linePrefix)
    (houtput : s.output.length ≤ maxOutput) (chunk : List UInt8) :
    SearchOutcome linePrefix maxOutput s chunk
      ((scanChunk linePrefix maxOutput s chunk).map fun s' => (s', [])) := by
  induction hmeasure : s.measure chunk using Nat.strongRecOn generalizing s chunk with
  | _ n ih =>
    cases chunk with
    | nil =>
      rw [scanChunk]
      exact ⟨hs, houtput, fun more => rfl⟩
    | cons byte rest =>
      have hturn := s.turn_outcome hline hs houtput byte rest
      rw [scanChunk]
      split
      next e herror =>
        rw [herror] at hturn
        exact hturn
      next s' left hok =>
        rw [hok] at hturn
        have hless := Scan.turn_measure linePrefix maxOutput hok
        have hrun := ih _ (hmeasure ▸ hless) hturn.matched hturn.output left rfl
        revert hrun
        cases scanChunk linePrefix maxOutput s' left with
        | error e =>
          refine fun hrun => ⟨hrun.1, fun more => ?_⟩
          rw [hturn.same]
          exact hrun.2 more
        | ok last =>
          exact fun hrun => ⟨hrun.matched, hrun.output, fun more =>
            (hturn.same more).trans (hrun.same more)⟩

/-- At the end of the file nothing is left to take. -/
lemma Scan.pending_nil (hline : lineFeed ∉ linePrefix) (hs : s.Partial linePrefix) :
    s.pending linePrefix [] = [] := by
  unfold pending
  split
  · rfl
  · split
    · -- a line that ends inside the prefix does not start with it
      rw [append_nil]
      by_cases hempty : linePrefix = []
      · rw [hempty, take_nil]
        rfl
      · have hm := hs hempty
        have htake : lineFeed ∉ linePrefix.take s.matched :=
          fun hmem => hline (mem_of_mem_take hmem)
        by_cases hnone : linePrefix.take s.matched = []
        · rw [hnone]
          rfl
        · rw [selectLines_eq _ hnone, firstLine_eq_self htake, afterLine_eq_nil htake, if_neg]
          · rfl
          · intro hstarts
            have hle := (List.isPrefixOf_iff_prefix.mp hstarts).length_le
            rw [length_take] at hle
            omega
    · rfl

/-- Neither the cancel flag nor the deadline stops the search. -/
def Look.Quiet (maxScanMs : Int) (look : Look) : Prop :=
  look.cancelled = false ∧ scanDeadlineExceeded look.elapsedMs maxScanMs = false

/-- The reads give the content in some chunks, and then its end, and nothing stops them. -/
inductive Answers (maxScanMs : Int) : List ReadTurn → List UInt8 → Prop
  | ended {before after : Look} (turns : List ReadTurn) : before.Quiet maxScanMs →
    after.Quiet maxScanMs → Answers maxScanMs (⟨before, .ok [], after⟩ :: turns) []
  | read {before after : Look} {chunk : List UInt8} {turns : List ReadTurn}
      {content : List UInt8} :
    before.Quiet maxScanMs → after.Quiet maxScanMs → chunk ≠ [] → Answers maxScanMs turns content →
    Answers maxScanMs (⟨before, .ok chunk, after⟩ :: turns) (chunk ++ content)

variable {maxScanMs : Int}

lemma Look.Quiet.check {look : Look} (h : look.Quiet maxScanMs) :
    look.check maxScanMs = .ok () := by
  rw [Look.check, h.1, h.2, if_neg Bool.false_ne_true, if_neg Bool.false_ne_true]

/-- The loop over the reads collects the lines of the file, or refuses them as too large. -/
theorem scanReads_eq (path : String) {turns : List ReadTurn} {content : List UInt8}
    (hline : lineFeed ∉ linePrefix) (hs : s.Partial linePrefix)
    (houtput : s.output.length ≤ maxOutput) (hreads : Answers maxScanMs turns content) :
    (scanReads linePrefix maxOutput maxScanMs path s turns).map Scan.output =
      if maxOutput < (s.output ++ s.pending linePrefix content).length then
        .error toolResultTooLarge
      else .ok (s.output ++ s.pending linePrefix content) := by
  induction hreads generalizing s with
  | ended turns hbefore hafter =>
    rw [scanReads, hbefore.check, hafter.check, s.pending_nil hline hs, append_nil,
      if_neg (Nat.not_lt.mpr houtput)]
    rfl
  | @read before after chunk turns content hbefore hafter hchunk hmore ih =>
    have hchunk' : chunk.isEmpty = false := isEmpty_eq_false_iff.mpr hchunk
    have hrun := scanChunk_outcome hline hs houtput chunk
    rw [scanReads, hbefore.check, hafter.check]
    show Except.map _ (if chunk.isEmpty then _ else _) = _
    rw [hchunk', if_neg Bool.false_ne_true]
    revert hrun
    cases scanChunk linePrefix maxOutput s chunk with
    | error e =>
      intro hrun
      rw [if_pos (hrun.2 content), hrun.1]
      rfl
    | ok s' =>
      intro hrun
      rw [hrun.same content]
      exact ih hrun.matched hrun.output

end

/-! ## The search -/

/-- A file that opens and has this content, with nothing that stops the search. -/
structure SearchedFile.Contains (file : SearchedFile) (maxScanMs : Int) (content : List UInt8) :
    Prop where
  opened : file.opened = .ok ()
  quiet : file.look.Quiet maxScanMs
  reads : Answers maxScanMs file.reads content

/-- The lines of the file that start with the prefix, decoded, unless their bytes or their text pass
the ceiling. A ceiling above the bound of the slot is refused. -/
theorem readLines_exact {path linePrefix content : List UInt8} {pathText : String}
    {maxScanMs : Int} {file : SearchedFile} (maxResult ceiling : Nat)
    (hpath : fromUtf8 path = .ok pathText) (hline : lineFeed ∉ linePrefix)
    (hscan : 0 ≤ maxScanMs) (hfile : file.Contains maxScanMs content) :
    (readLinesStartingWithLossy maxResult path linePrefix ceiling maxScanMs file =
        if maxResult < ceiling ∨ ceiling < (selectLines lineFeed linePrefix content).length ∨
          ceiling < (fromUtf8Lossy (selectLines lineFeed linePrefix content)).utf8ByteSize
        then .error toolResultTooLarge
        else .ok (fromUtf8Lossy (selectLines lineFeed linePrefix content))) ∧
      ∀ bytes maxBytes, boundedLossy bytes maxBytes =
        if maxBytes < (fromUtf8Lossy bytes).utf8ByteSize then .error toolResultTooLarge
        else .ok (fromUtf8Lossy bytes) := by
  refine ⟨?_, boundedLossy_eq⟩
  have hcontains : linePrefix.contains lineFeed = false := by
    rwa [contains_eq_mem, decide_eq_false_iff_not]
  have hceiling : checkedUsize ceiling "fs.read_lines_starting_with_lossy max_output_bytes"
      = .ok ceiling := if_neg (Int.not_lt.mpr (Int.natCast_nonneg _))
  have hrun := scanReads_eq pathText (s := {}) hline length_pos_of_ne_nil
    (Nat.zero_le ceiling) hfile.reads
  have hstart : Scan.pending linePrefix {} content = selectLines lineFeed linePrefix content := by
    rw [Scan.pending_start rfl rfl, take_zero, nil_append]
  rw [hstart, show Scan.output {} = [] from rfl, nil_append] at hrun
  show (do
    let path ← (fromUtf8 path).mapError fun _ => notUtf8Argument
    let maxOutput ← checkedUsize ceiling "fs.read_lines_starting_with_lossy max_output_bytes"
    _) = _
  rw [hpath, hceiling]
  show (if maxScanMs < 0 then _ else if linePrefix.contains lineFeed = true then _
    else if maxResult < ceiling then _ else _) = _
  rw [if_neg (Int.not_lt.mpr hscan), hcontains, if_neg Bool.false_ne_true]
  by_cases hbound : maxResult < ceiling
  · rw [if_pos hbound, if_pos (.inl hbound)]
  · rw [if_neg hbound, hfile.opened, hfile.quiet.check]
    show (do
      let s ← scanReads linePrefix ceiling maxScanMs pathText {} file.reads
      boundedLossy s.output ceiling) = _
    revert hrun
    cases scanReads linePrefix ceiling maxScanMs pathText {} file.reads with
    | error e =>
      intro hrun
      split at hrun
      next hover =>
        rw [if_pos (.inr (.inl hover))]
        exact congrArg _ (Except.error.inj hrun)
      next => cases hrun
    | ok s =>
      intro hrun
      split at hrun
      next => cases hrun
      next hfits =>
        have houtput : s.output = selectLines lineFeed linePrefix content := Except.ok.inj hrun
        show boundedLossy s.output ceiling = _
        rw [houtput, boundedLossy_eq]
        simp only [hbound, hfits, false_or]

/-- The file `ab`, `ac`, cut inside a line. -/
def searchedExample : SearchedFile where
  opened := .ok ()
  look := ⟨false, 0⟩
  reads :=
    [⟨⟨false, 0⟩, .ok [97], ⟨false, 0⟩⟩, ⟨⟨false, 0⟩, .ok [98, 10, 97, 99], ⟨false, 0⟩⟩,
      ⟨⟨false, 0⟩, .ok [], ⟨false, 0⟩⟩]

theorem readLines_exact_cut :
    selectLines lineFeed [97, 98] [97, 98, 10, 97, 99] = [97, 98, 10] ∧
      readLinesStartingWithLossy 64 ("f".toList.flatMap String.utf8EncodeChar) [97, 98] 8 0
        searchedExample = .ok "ab\n" := by
  have hquiet : (⟨false, 0⟩ : Look).Quiet 0 := ⟨rfl, rfl⟩
  have hfile : searchedExample.Contains 0 [97, 98, 10, 97, 99] :=
    ⟨rfl, hquiet, .read hquiet hquiet (by decide)
      (.read hquiet hquiet (by decide) (.ended [] hquiet hquiet))⟩
  have hlossy : fromUtf8Lossy [97, 98, 10] = "ab\n" :=
    fromUtf8_ok (fromUtf8_encode ['a', 'b', '\n'])
  have hselected : selectLines lineFeed [97, 98] [97, 98, 10, 97, 99] = [97, 98, 10] := by decide
  refine ⟨hselected, ?_⟩
  have hexact := (readLines_exact 64 8 (fromUtf8_encode "f".toList)
    (show lineFeed ∉ [97, 98] by decide) (Int.le_refl 0) hfile).1
  rw [hselected, hlossy] at hexact
  exact hexact

/-- A ceiling above the bound of the slot is refused where nothing passes it. -/
theorem ceiling_above_bound :
    ∃ file : SearchedFile, file.Contains 0 [] ∧
      readLinesStartingWithLossy 1 ("f".toList.flatMap String.utf8EncodeChar) [] 2 0 file =
        .error toolResultTooLarge ∧
      (selectLines lineFeed [] []).length ≤ 2 ∧
      (fromUtf8Lossy (selectLines lineFeed [] [])).utf8ByteSize ≤ 2 := by
  have hquiet : (⟨false, 0⟩ : Look).Quiet 0 := ⟨rfl, rfl⟩
  refine ⟨⟨.ok (), ⟨false, 0⟩, [⟨⟨false, 0⟩, .ok [], ⟨false, 0⟩⟩]⟩,
    ⟨rfl, hquiet, .ended [] hquiet hquiet⟩, ?_, by decide, ?_⟩
  · unfold readLinesStartingWithLossy
    rw [fromUtf8_encode]
    rfl
  · rw [selectLines_nil, fromUtf8Lossy_nil]
    decide

end Agenterm.Qjswasm
