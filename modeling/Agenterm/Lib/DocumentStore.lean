import Agenterm.Lib.Checks

/-!
# One validated document in a file

A file that holds one document, and processes that take turns on it by a lock. A transaction
(`transact`) reads the document, edits it, checks what it became and replaces the file; an
inspection (`inspect`) only reads. The lock, the reads and the replacement may fail.

* `transact_error`: a transaction that fails leaves the file unchanged, unless the file had been
  replaced when the write failed;
* `transact_file`: what a transaction may do to the file;
* `transact_fails`: why a transaction on a file that passes its checks fails;
* `transact_ok`, `transact_eq_ok`: when a transaction succeeds.
-/

namespace Agenterm.Lib

/-- What taking the lock comes to. -/
inductive LockResult where
  | acquired
  | contended
  | failed
deriving DecidableEq

/-- What becomes of the new file. -/
inductive WriteResult where
  | published
  /-- The write fails, and the file is the old one. -/
  | refused
  /-- The write fails after the new file has taken the place of the old one. -/
  | unsettled
deriving DecidableEq

/-- What the surroundings of one call do. -/
structure StoreIo where
  lock : LockResult
  /-- The file can be inspected and read. -/
  readable : Bool
  write : WriteResult
deriving DecidableEq

/-- Nothing gets in the way of a call. -/
structure StoreIo.Works (io : StoreIo) : Prop where
  lock_acquired : io.lock = .acquired
  is_readable : io.readable = true
  write_published : io.write = .published

/-- The write replaces the file or fails, not both. -/
def StoreIo.Atomic (io : StoreIo) : Prop := io.write ≠ .unsettled

/-- How documents are checked, and the errors of the calls. -/
structure DocumentStore (D ε : Type) where
  /-- The document of a file that does not exist. -/
  empty : D
  validate : D → Except ε Unit
  /-- The length of the text of a document. -/
  size : D → Nat
  maxBytes : Nat
  contended : ε
  unavailable : ε
  unreadable : ε
  oversized : ε
  limit : ε
  unpublished : ε

namespace DocumentStore

section
variable {D ε α : Type} (store : DocumentStore D ε) (io : StoreIo) (file : Option D)

def acquire : Except ε Unit :=
  match io.lock with
  | .acquired => .ok ()
  | .contended => .error store.contended
  | .failed => .error store.unavailable

def read : Except ε D :=
  if io.readable = false then
    .error store.unreadable
  else
    match file with
    | none => .ok store.empty
    | some document =>
      if store.size document > store.maxBytes then
        .error store.oversized
      else do
        store.validate document
        .ok document

/-- The checks on a new document. -/
def checkNew (document : D) : Except ε Unit := do
  store.validate document
  if store.size document > store.maxBytes then .error store.limit else .ok ()

/-- A transaction up to the write: the answer, and the new document. -/
def attempt (edit : D → Except ε (α × D)) : Except ε (α × D) := do
  store.acquire io
  let document ← store.read io file
  let (answer, document) ← edit document
  store.checkNew document
  .ok (answer, document)

/-- A transaction: its answer, and the file it leaves. -/
def transact (edit : D → Except ε (α × D)) : Except ε α × Option D :=
  match store.attempt io file edit with
  | .error error => (.error error, file)
  | .ok (answer, document) =>
    match io.write with
    | .published => (.ok answer, some document)
    | .refused => (.error store.unpublished, file)
    | .unsettled => (.error store.unpublished, some document)

/-- A call that first checks its arguments. -/
def guarded (file : Option D) (checks : Except ε Unit) (call : Except ε α × Option D) :
    Except ε α × Option D :=
  match checks with
  | .error error => (.error error, file)
  | .ok () => call

/-- Reads under the lock. -/
def inspect (query : D → Except ε α) : Except ε α := do
  store.acquire io
  let document ← store.read io file
  query document

end

section
variable {D ε α : Type} {store : DocumentStore D ε} {io : StoreIo} {file : Option D}

/-- The document that a call finds. -/
def current (store : DocumentStore D ε) (file : Option D) : D := file.getD store.empty

lemma acquire_eq_ok : store.acquire io = .ok () ↔ io.lock = .acquired := by
  unfold acquire
  cases io.lock <;> simp

lemma read_eq_ok {document : D} (h : store.read io file = .ok document) :
    io.readable = true ∧ document = store.current file ∧
      ∀ held, file = some held → store.size held ≤ store.maxBytes ∧ store.validate held = .ok () := by
  unfold read at h
  rw [ite_error_eq_ok] at h
  obtain ⟨hreadable, h⟩ := h
  refine ⟨by simpa using hreadable, ?_⟩
  cases file with
  | none => exact ⟨(Except.ok.inj h).symm, fun _ hheld => absurd hheld nofun⟩
  | some held =>
    rw [ite_error_eq_ok, bind_unit_eq_ok] at h
    obtain ⟨hsize, hvalid, h⟩ := h
    refine ⟨(Except.ok.inj h).symm, fun _ hheld => ?_⟩
    cases hheld
    exact ⟨by omega, hvalid⟩

/-- A file that passes its checks is read. -/
lemma read_of_valid (hio : io.readable = true)
    (hvalid : ∀ held, file = some held →
      store.size held ≤ store.maxBytes ∧ store.validate held = .ok ()) :
    store.read io file = .ok (store.current file) := by
  unfold read
  rw [if_neg (by rw [hio]; exact Bool.noConfusion)]
  cases file with
  | none => rfl
  | some held =>
    obtain ⟨hsize, hheld⟩ := hvalid held rfl
    dsimp only
    rw [if_neg (by omega), hheld]
    rfl

lemma checkNew_eq_ok {document : D} :
    store.checkNew document = .ok () ↔
      store.validate document = .ok () ∧ store.size document ≤ store.maxBytes := by
  unfold checkNew
  rw [bind_unit_eq_ok, ite_error_eq_ok]
  simp

variable {edit : D → Except ε (α × D)}

lemma guarded_ok {checks : Except ε Unit} {call : Except ε α × Option D} {answer : α}
    (h : (guarded file checks call).1 = .ok answer) :
    checks = .ok () ∧ guarded file checks call = call := by
  unfold guarded at *
  cases checks with
  | error e => cases h
  | ok _ => exact ⟨rfl, rfl⟩

lemma guarded_file (file : Option D) (checks : Except ε Unit) (call : Except ε α × Option D) :
    (guarded file checks call).2 = file ∨ checks = .ok () ∧ guarded file checks call = call := by
  unfold guarded
  cases checks with
  | error e => exact .inl rfl
  | ok _ => exact .inr ⟨rfl, rfl⟩

lemma guarded_error {checks : Except ε Unit} {call : Except ε α × Option D}
    (hcall : ∀ error, call.1 = .error error → call.2 = file) {error : ε}
    (h : (guarded file checks call).1 = .error error) : (guarded file checks call).2 = file := by
  unfold guarded at *
  cases checks with
  | error e => rfl
  | ok _ => exact hcall error h

/-- A document that a transaction has made of the file. -/
structure Makes (store : DocumentStore D ε) (io : StoreIo) (file : Option D)
    (edit : D → Except ε (α × D)) (answer : α) (document : D) : Prop where
  lock_acquired : io.lock = .acquired
  is_readable : io.readable = true
  read_valid : ∀ held, file = some held →
    store.size held ≤ store.maxBytes ∧ store.validate held = .ok ()
  edited : edit (store.current file) = .ok (answer, document)
  valid : store.validate document = .ok ()
  size_le : store.size document ≤ store.maxBytes

lemma attempt_eq_ok {answer : α} {document : D} :
    store.attempt io file edit = .ok (answer, document) ↔
      Makes store io file edit answer document := by
  unfold attempt
  rw [bind_unit_eq_ok, acquire_eq_ok, bind_eq_ok]
  constructor
  · rintro ⟨hlock, found, hread, h⟩
    obtain ⟨hreadable, rfl, hvalid⟩ := read_eq_ok hread
    obtain ⟨⟨answer', document'⟩, hedit, h⟩ := bind_eq_ok.mp h
    rw [bind_unit_eq_ok, checkNew_eq_ok] at h
    obtain ⟨⟨hdocument, hsize⟩, h⟩ := h
    cases h
    exact ⟨hlock, hreadable, hvalid, hedit, hdocument, hsize⟩
  · intro h
    refine ⟨h.lock_acquired, _, read_of_valid h.is_readable h.read_valid,
      bind_eq_ok.mpr ⟨_, h.edited, ?_⟩⟩
    rw [bind_unit_eq_ok, checkNew_eq_ok]
    exact ⟨⟨h.valid, h.size_le⟩, rfl⟩

/-- A transaction that fails leaves the file unchanged. -/
theorem transact_error (hatomic : io.Atomic) {error : ε}
    (h : (store.transact io file edit).1 = .error error) :
    (store.transact io file edit).2 = file := by
  unfold transact at *
  cases hattempt : store.attempt io file edit with
  | error e => rfl
  | ok result =>
    rw [hattempt] at h
    cases hwrite : io.write with
    | published =>
      rw [hwrite] at h
      cases h
    | refused => rfl
    | unsettled => exact absurd hwrite hatomic

/-- The file after a transaction is the old one or what the transaction has made of it. -/
theorem transact_file (store : DocumentStore D ε) (io : StoreIo) (file : Option D)
    (edit : D → Except ε (α × D)) :
    (store.transact io file edit).2 = file ∨
      ∃ answer document, Makes store io file edit answer document ∧
        (store.transact io file edit).2 = some document := by
  unfold transact
  cases hattempt : store.attempt io file edit with
  | error e => exact .inl rfl
  | ok result =>
    have hmakes := attempt_eq_ok.mp hattempt
    cases io.write with
    | published => exact .inr ⟨_, _, hmakes, rfl⟩
    | refused => exact .inl rfl
    | unsettled => exact .inr ⟨_, _, hmakes, rfl⟩

/-- A transaction that succeeds has written what it has made of the file. -/
theorem transact_ok {answer : α} (h : (store.transact io file edit).1 = .ok answer) :
    ∃ document, Makes store io file edit answer document ∧
      (store.transact io file edit).2 = some document := by
  unfold transact at *
  cases hattempt : store.attempt io file edit with
  | error e =>
    rw [hattempt] at h
    cases h
  | ok result =>
    have hmakes := attempt_eq_ok.mp hattempt
    rw [hattempt] at h
    cases hwrite : io.write with
    | published =>
      rw [hwrite] at h
      exact ⟨_, Except.ok.inj h ▸ hmakes, rfl⟩
    | refused =>
      rw [hwrite] at h
      cases h
    | unsettled =>
      rw [hwrite] at h
      cases h

/-- Why a transaction on a file that passes its checks fails. -/
inductive Fails (store : DocumentStore D ε) (file : Option D) (edit : D → Except ε (α × D)) :
    ε → Prop
  | contended : Fails store file edit store.contended
  | unavailable : Fails store file edit store.unavailable
  | unreadable : Fails store file edit store.unreadable
  | edit (error : ε) (fails : edit (store.current file) = .error error) :
    Fails store file edit error
  | invalid (answer : α) (document : D) (error : ε)
    (edited : edit (store.current file) = .ok (answer, document))
    (invalid : store.validate document = .error error) : Fails store file edit error
  | limit : Fails store file edit store.limit
  | unpublished : Fails store file edit store.unpublished

theorem transact_fails
    (hread : ∀ held, file = some held →
      store.size held ≤ store.maxBytes ∧ store.validate held = .ok ())
    {error : ε} (h : (store.transact io file edit).1 = .error error) :
    Fails store file edit error := by
  unfold transact at h
  cases hattempt : store.attempt io file edit with
  | ok result =>
    rw [hattempt] at h
    cases hwrite : io.write with
    | published =>
      rw [hwrite] at h
      cases h
    | refused =>
      rw [hwrite] at h
      exact Except.error.inj h ▸ .unpublished
    | unsettled =>
      rw [hwrite] at h
      exact Except.error.inj h ▸ .unpublished
  | error e =>
    rw [hattempt] at h
    obtain rfl := Except.error.inj h
    rcases bind_eq_error.mp hattempt with hacquire | ⟨-, -, hattempt⟩
    · unfold acquire at hacquire
      split at hacquire
      · cases hacquire
      · exact Except.error.inj hacquire ▸ .contended
      · exact Except.error.inj hacquire ▸ .unavailable
    rcases bind_eq_error.mp hattempt with hfails | ⟨found, hfound, hattempt⟩
    · cases hreadable : io.readable with
      | false =>
        have hunreadable : store.read io file = .error store.unreadable := if_pos hreadable
        exact Except.error.inj (hunreadable.symm.trans hfails) ▸ .unreadable
      | true =>
        rw [read_of_valid hreadable hread] at hfails
        cases hfails
    obtain ⟨-, rfl, -⟩ := read_eq_ok hfound
    rcases bind_eq_error.mp hattempt with hedit | ⟨⟨answer, document⟩, hedit, hattempt⟩
    · exact .edit e hedit
    rcases bind_eq_error.mp hattempt with hcheck | ⟨-, -, hok⟩
    · rcases bind_eq_error.mp hcheck with hinvalid | ⟨-, -, hsize⟩
      · exact .invalid answer document e hedit hinvalid
      · split at hsize
        · exact Except.error.inj hsize ▸ .limit
        · cases hsize
    · cases hok

section
variable (hio : io.Works)
  (hread : ∀ held, file = some held →
    store.size held ≤ store.maxBytes ∧ store.validate held = .ok ())
include hio hread

/-- When nothing gets in the way and the checks pass, the edit is written. -/
theorem transact_eq_ok {answer : α} {document : D}
    (hedit : edit (store.current file) = .ok (answer, document))
    (hvalid : store.validate document = .ok ()) (hsize : store.size document ≤ store.maxBytes) :
    store.transact io file edit = (.ok answer, some document) := by
  have hattempt : store.attempt io file edit = .ok (answer, document) :=
    attempt_eq_ok.mpr ⟨hio.lock_acquired, hio.is_readable, hread, hedit, hvalid, hsize⟩
  unfold transact
  rw [hattempt, hio.write_published]

/-- When nothing gets in the way and the edit fails, so does the transaction. -/
theorem transact_eq_error {error : ε}
    (hedit : edit (store.current file) = .error error) :
    store.transact io file edit = (.error error, file) := by
  have hattempt : store.attempt io file edit = .error error := by
    unfold attempt
    rw [acquire_eq_ok.mpr hio.lock_acquired, read_of_valid hio.is_readable hread]
    simp only [bind, Except.bind, hedit]
  unfold transact
  rw [hattempt]

/-- A document that does not pass the check is not written. -/
theorem transact_invalid {answer : α} {document : D} {error : ε}
    (hedit : edit (store.current file) = .ok (answer, document))
    (hinvalid : store.validate document = .error error) :
    store.transact io file edit = (.error error, file) := by
  have hattempt : store.attempt io file edit = .error error := by
    unfold attempt checkNew
    rw [acquire_eq_ok.mpr hio.lock_acquired, read_of_valid hio.is_readable hread]
    simp only [bind, Except.bind, hedit, hinvalid]
  unfold transact
  rw [hattempt]

end

end

end DocumentStore

end Agenterm.Lib
