import Agenterm.Cu.IdempotencyTheorems

/-!
# A reservation can be closed

The text of a document that passes the check is never too long (`encodedLength_le`): a record of
the longest texts takes at most 810 bytes, and there are at most 1024 of them. With that, and since
the clock of a document is not before the times of its records (`Document.Timed`), the owner of an
unexpired reservation can always finalize it.
-/

namespace Agenterm.Cu.Idempotency

open Std List Lib Value

/-! ## The length of a document -/

variable {c : Char} {document : Document} {now : I64} {outcome : FinalOutcome}
  {record : RequestRecord} {value : String}

lemma plain_of_toNat (hprintable : 0x20 ≤ c.toNat) (hquote : c.toNat ≠ 34)
    (hbackslash : c.toNat ≠ 92) : Plain c := by
  refine ⟨hprintable, ?_, ?_⟩
  · rintro rfl
    exact hquote rfl
  · rintro rfl
    exact hbackslash rfl

lemma toNat_of_isLower (h : c.isLower = true) : 97 ≤ c.toNat ∧ c.toNat ≤ 122 := by
  unfold Char.isLower at h
  rw [Bool.and_eq_true, decide_eq_true_eq, decide_eq_true_eq, ge_iff_le,
    UInt32.le_iff_toNat_le, UInt32.le_iff_toNat_le] at h
  exact h

lemma toNat_of_isUpper (h : c.isUpper = true) : 65 ≤ c.toNat ∧ c.toNat ≤ 90 := by
  unfold Char.isUpper at h
  rw [decide_eq_true_eq, ge_iff_le, UInt32.le_iff_toNat_le, UInt32.le_iff_toNat_le] at h
  exact h

lemma plain_of_isAlphanum (h : c.isAlphanum = true) : Plain c := by
  have h : (c.isUpper || c.isLower || c.isDigit) = true := h
  rw [Bool.or_eq_true, Bool.or_eq_true] at h
  rcases h with (hupper | hlower) | hdigit
  · have hrange := toNat_of_isUpper hupper
    exact plain_of_toNat (by omega) (by omega) (by omega)
  · have hrange := toNat_of_isLower hlower
    exact plain_of_toNat (by omega) (by omega) (by omega)
  · have hrange := toNat_of_isDigit hdigit
    exact plain_of_toNat (by omega) (by omega) (by omega)

/-- The punctuation of ids and codes. -/
lemma plain_of_mem (h : c ∈ ['-', '_', '.', ':']) : Plain c := by
  simp only [mem_cons, not_mem_nil, or_false] at h
  unfold Plain
  rcases h with rfl | rfl | rfl | rfl <;> decide

lemma plain_of_isRequestIdChar (h : isRequestIdChar c = true) : Plain c := by
  unfold isRequestIdChar at h
  simp only [Bool.or_eq_true, beq_iff_eq] at h
  rcases h with (((halpha | hc) | hc) | hc) | hc
  · exact plain_of_isAlphanum halpha
  all_goals exact plain_of_mem (by simp [hc])

lemma plain_of_isOutcomeCodeChar (h : isOutcomeCodeChar c = true) : Plain c := by
  unfold isOutcomeCodeChar at h
  simp only [Bool.or_eq_true, beq_iff_eq] at h
  rcases h with ((((hlower | hdigit) | hc) | hc) | hc) | hc
  · have hrange := toNat_of_isLower hlower
    exact plain_of_toNat (by omega) (by omega) (by omega)
  · have hrange := toNat_of_isDigit hdigit
    exact plain_of_toNat (by omega) (by omega) (by omega)
  all_goals exact plain_of_mem (by simp [hc])

lemma requestId_length_le (h : validateRequestId value = .ok ()) : stringLength value ≤ 130 := by
  unfold validateRequestId at h
  rw [ite_error_eq_ok] at h
  have hchecks := h.1
  simp only [Bool.or_eq_true, not_or, Bool.not_eq_true, decide_eq_false_iff_not,
    Bool.not_eq_false', all_eq_true] at hchecks
  obtain ⟨⟨-, hsize⟩, hchars⟩ := hchecks
  have hmax : maxRequestIdBytes = 128 := rfl
  rw [stringLength_plain fun c hc => plain_of_isRequestIdChar (hchars c hc)]
  omega

lemma digest_length (h : validDigest value = true) : stringLength value = 66 := by
  unfold validDigest at h
  rw [Bool.and_eq_true, beq_iff_eq, all_eq_true] at h
  rw [stringLength_plain fun c hc => plain_of_isLowerHex (h.2 c hc), h.1]

lemma uuid_length (h : isLowercaseUuidV4 value = true) : stringLength value = 38 := by
  unfold isLowercaseUuidV4 at h
  simp only [Bool.and_eq_true, beq_iff_eq, all_eq_true] at h
  obtain ⟨⟨⟨⟨⟨⟨⟨hsize, h8⟩, h13⟩, h18⟩, h23⟩, -⟩, -⟩, hchars⟩ := h
  have hplain : ∀ c ∈ value.toList, Plain c := by
    intro c hc
    obtain ⟨index, hindex⟩ := mem_iff_getElem?.mp hc
    have hchar := hchars (c, index) (mem_zipIdx_iff_getElem?.mpr hindex)
    have hhyphen : ∀ place, value.toList[place]? = some '-' → index = place → Plain c := by
      rintro place hplace rfl
      obtain rfl := Option.some.inj (hindex.symm.trans hplace)
      exact plain_of_mem (by simp)
    simp only [Bool.or_eq_true, beq_iff_eq] at hchar
    rcases hchar with (((hat | hat) | hat) | hat) | hhex
    · exact hhyphen 8 h8 hat
    · exact hhyphen 13 h13 hat
    · exact hhyphen 18 h18 hat
    · exact hhyphen 23 h23 hat
    · exact plain_of_isLowerHex hhex
  rw [stringLength_plain hplain, hsize]

/-- The text of a time. -/
lemma time_length_le {n : I64} (h : 0 ≤ n.val) : n.json.encodedLength ≤ 19 := by
  have hlt := n.property.2
  exact encodedLength_number_le (by omega) h (by omega)

/-- The identifier in the replay data of an outcome. -/
def FinalReplay.id : FinalReplay → String
  | .jobSpawn jobId _ => jobId
  | .deviceClaim leaseId _ => leaseId
  | .privilegeApply receiptId => receiptId

lemma generationReplay_id_valid {kind id : String} {generation : UInt64}
    (h : validateGenerationReplay kind id generation outcome = .ok ()) :
    isLowercaseUuidV4 id = true := by
  unfold validateGenerationReplay at h
  rw [ite_error_eq_ok, ite_error_eq_ok] at h
  have hid := h.2.1
  simp only [Bool.or_eq_true, not_or, Bool.not_eq_true, Bool.not_eq_false'] at hid
  exact hid.2

variable {key : String} {record' : RequestRecord} {replay : FinalReplay} {schemaVersion : Nat}

lemma replay_id_valid (h : validateReplay outcome replay = .ok ()) :
    isLowercaseUuidV4 replay.id = true := by
  cases replay with
  | jobSpawn jobId generation => exact generationReplay_id_valid h
  | deviceClaim leaseId generation => exact generationReplay_id_valid h
  | privilegeApply receiptId =>
    unfold validateReplay at h
    rw [ite_error_eq_ok, ite_error_eq_ok] at h
    have hid := h.2.1
    rw [Bool.not_eq_true, Bool.not_eq_false'] at hid
    exact hid

lemma replay_length_le (h : validateReplay outcome replay = .ok ()) :
    replay.json.encodedLength ≤ 107 := by
  have hgeneration : ∀ generation : UInt64, (nat generation.toNat).encodedLength ≤ 20 := by
    intro generation
    have hlt := generation.toNat_lt
    exact encodedLength_number_le (by omega) (by omega) (by omega)
  have hnames : stringLength "kind" = 6 ∧ stringLength "job_spawn" = 11 ∧
      stringLength "job_id" = 8 ∧ stringLength "generation" = 12 ∧
      stringLength "device_claim" = 14 ∧ stringLength "lease_id" = 10 ∧
      stringLength "privilege_apply" = 17 ∧ stringLength "receipt_id" = 12 := by decide
  obtain ⟨hkind, hjob, hjobId, hgen, hdevice, hlease, hprivilege, hreceipt⟩ := hnames
  cases replay with
  | jobSpawn jobId generation =>
    have hid := uuid_length (replay_id_valid h)
    simp only [FinalReplay.id] at hid
    have hnumber := hgeneration generation
    simp only [FinalReplay.json, encodedLength, fieldsLength, fieldLength,
      length_cons, length_nil]
    omega
  | deviceClaim leaseId generation =>
    have hid := uuid_length (replay_id_valid h)
    simp only [FinalReplay.id] at hid
    have hnumber := hgeneration generation
    simp only [FinalReplay.json, encodedLength, fieldsLength, fieldLength,
      length_cons, length_nil]
    omega
  | privilegeApply receiptId =>
    have hid := uuid_length (replay_id_valid h)
    simp only [FinalReplay.id] at hid
    simp only [FinalReplay.json, encodedLength, fieldsLength, fieldLength,
      length_cons, length_nil]
    omega

/-- What the check on an outcome demands. -/
structure FinalOutcome.Valid (outcome : FinalOutcome) : Prop where
  code_length : stringLength outcome.code ≤ 98
  receipt_valid : ∀ digest, outcome.receiptSha256 = some digest → validDigest digest = true
  replay_valid : ∀ replay, outcome.replay = some replay → validateReplay outcome replay = .ok ()

lemma outcome_valid (h : validateOutcome outcome = .ok ()) : outcome.Valid := by
  unfold validateOutcome at h
  rw [ite_error_eq_ok, bind_unit_eq_ok, checkSome_eq_ok, checkSome_eq_ok] at h
  obtain ⟨hcode, hreceipt, hreplay⟩ := h
  refine ⟨?_, fun digest hdigest => validateDigest_eq_ok.mp (hreceipt digest hdigest), hreplay⟩
  simp only [Bool.or_eq_true, not_or, Bool.not_eq_true, decide_eq_false_iff_not,
    Bool.not_eq_false', all_eq_true] at hcode
  obtain ⟨⟨-, hsize⟩, hchars⟩ := hcode
  have hmax : maxOutcomeCodeBytes = 96 := rfl
  rw [stringLength_plain fun c hc => plain_of_isOutcomeCodeChar (hchars c hc)]
  omega

/-- Field lists one after the other. -/
lemma fieldsLength_append (xs ys : List (String × Value)) :
    fieldsLength (xs ++ ys) = fieldsLength xs + fieldsLength ys := by
  induction xs with
  | nil => simp [fieldsLength]
  | cons x xs ih =>
    rw [cons_append, fieldsLength, ih, fieldsLength]
    omega

/-- An optional field takes what its name and its value take. -/
lemma optionalField_length_le {α : Type} (name : String) {json : α → Value} {value : Option α}
    {bound : Nat} (h : ∀ a, value = some a → (json a).encodedLength ≤ bound) :
    fieldsLength (optionalField name json value) ≤ stringLength name + 1 + bound := by
  cases value with
  | none => exact Nat.zero_le _
  | some a =>
    have hvalue := h a rfl
    simp only [optionalField, fieldsLength, fieldLength]
    omega

lemma optionalField_count_le {α : Type} (name : String) (json : α → Value) (value : Option α) :
    (optionalField name json value).length ≤ 1 := by
  cases value with
  | none => exact Nat.zero_le _
  | some a => exact Nat.le_refl _

lemma outcome_length_le (h : outcome.Valid) : outcome.json.encodedLength ≤ 327 := by
  have hnames : stringLength "kind" = 6 ∧ stringLength "code" = 6 ∧
      stringLength "receipt_sha256" = 16 ∧ stringLength "replay" = 8 := by decide
  obtain ⟨hkindName, hcodeName, hreceiptName, hreplayName⟩ := hnames
  have hkind : stringLength outcome.kind.name ≤ 11 := by
    cases outcome.kind <;> decide
  have hcode := h.code_length
  have hreceipt : ∀ digest, outcome.receiptSha256 = some digest →
      (string digest).encodedLength ≤ 66 := fun digest hdigest =>
    (digest_length (h.receipt_valid digest hdigest)).le
  have hreplay : ∀ replay, outcome.replay = some replay → replay.json.encodedLength ≤ 107 :=
    fun replay hreplay => replay_length_le (h.replay_valid replay hreplay)
  replace hreceipt := optionalField_length_le "receipt_sha256" hreceipt
  replace hreplay := optionalField_length_le "replay" hreplay
  have hreceiptCount := optionalField_count_le "receipt_sha256" string outcome.receiptSha256
  have hreplayCount := optionalField_count_le "replay" FinalReplay.json outcome.replay
  simp only [FinalOutcome.json, encodedLength, fieldsLength_append, fieldsLength,
    fieldLength, length_append, length_cons, length_nil]
  omega

lemma record_length_le (h : record.Valid schemaVersion key) : record.json.encodedLength ≤ 810 := by
  have hnames : stringLength "request_id" = 12 ∧ stringLength "fingerprint_sha256" = 20 ∧
      stringLength "completion_token_sha256" = 25 ∧ stringLength "state" = 7 ∧
      stringLength "created_at_utc_ms" = 19 ∧ stringLength "updated_at_utc_ms" = 19 ∧
      stringLength "expires_at_utc_ms" = 19 ∧ stringLength "outcome" = 9 := by decide
  obtain ⟨hidName, hfingerprintName, htokenName, hstateName, hcreatedName, hupdatedName,
    hexpiresName, houtcomeName⟩ := hnames
  have hid := requestId_length_le h.id_valid
  have hfingerprint := digest_length h.fingerprint_valid
  have htoken := digest_length h.token_valid
  have hstate : stringLength record.state.name ≤ 17 := by
    cases record.state <;> decide
  have hcreatedLe := h.created_nonneg
  have hupdatedLe := h.created_le
  have hexpiresLe := h.updated_lt
  have hcreated := time_length_le h.created_nonneg
  have hupdated : record.updatedAtUtcMs.json.encodedLength ≤ 19 := time_length_le (by omega)
  have hexpires : record.expiresAtUtcMs.json.encodedLength ≤ 19 := time_length_le (by omega)
  have houtcome : ∀ outcome, record.outcome = some outcome →
      outcome.json.encodedLength ≤ 327 := by
    intro outcome houtcome
    rcases validateStateOutcome_eq_ok.mp h.outcome_valid with ⟨-, hnone⟩ | ⟨-, _, hsome, hvalid, -⟩
    · rw [hnone] at houtcome
      cases houtcome
    · obtain rfl := Option.some.inj (hsome.symm.trans houtcome)
      exact outcome_length_le (outcome_valid hvalid)
  replace houtcome := optionalField_length_le "outcome" houtcome
  have hcount := optionalField_count_le "outcome" FinalOutcome.json record.outcome
  simp only [RequestRecord.json, encodedLength, fieldsLength_append, fieldsLength,
    fieldLength, length_append, length_cons, length_nil]
  omega

/-- The text of a document that passes the check is not too long. -/
theorem encodedLength_le (h : document.Valid) : document.json.encodedLength ≤ maxFileBytes := by
  have hnames : stringLength "schema_version" = 16 ∧ stringLength "last_now_utc_ms" = 17 ∧
      stringLength "records" = 9 := by decide
  obtain ⟨hschemaName, hclockName, hrecordsName⟩ := hnames
  have hschemaLe := h.schema_le
  have hschema : (nat document.schemaVersion).encodedLength ≤ 1 :=
    encodedLength_number_le (by omega) (by omega) (by
      have hversion : Idempotency.schemaVersion = 2 := rfl
      omega)
  have hclock := time_length_le h.clock_nonneg
  have hrecord : ∀ entry ∈ document.records.toList,
      fieldLength (entry.1, entry.2.json) ≤ 941 := by
    rintro ⟨key, record⟩ hmem
    have hvalid := h.records_valid key record (TreeMap.mem_toList_iff_getElem?_eq_some.mp hmem)
    have hkey := requestId_length_le hvalid.id_valid
    have hlength := record_length_le hvalid
    rw [← hvalid.key_eq] at hkey
    simp only [fieldLength]
    omega
  have hrecords := fieldsLength_map_le hrecord
  have hcount := h.size_le
  have hlength : document.records.toList.length = document.records.size := TreeMap.length_toList
  have hmax : maxRecords = 1024 := rfl
  have hbytes : maxFileBytes = 1048576 := rfl
  simp only [Document.json, encodedLength, fieldsLength, fieldLength,
    length_cons, length_nil, length_map]
  omega

/-! ## New documents that pass the check -/

lemma sweep_size_le (document : Document) (now : I64) :
    (document.sweep now).records.size ≤ document.records.size :=
  TreeMap.size_filter_le_size

/-- The document with which a call replaces one that passes the check. -/
lemma valid_update {records : TreeMap String RequestRecord} (h : document.Valid)
    (hclock : document.lastNowUtcMs.val ≤ now.val) (hsize : records.size ≤ maxRecords)
    (hrecords : ∀ (key : String) (record : RequestRecord), records[key]? = some record →
      document.records[key]? = some record ∨ record.Valid Idempotency.schemaVersion key) :
    ({ schemaVersion := Idempotency.schemaVersion, lastNowUtcMs := now, records } :
      Document).Valid := by
  have hnonneg := h.clock_nonneg
  have hschema : oldestReadableSchemaVersion ≤ Idempotency.schemaVersion := by decide
  refine ⟨hschema, Nat.le_refl _, by dsimp only; omega, hsize, fun key record hrecord => ?_⟩
  rcases hrecords key record hrecord with hold | hvalid
  · exact (h.records_valid key record hold).upgrade
  · exact hvalid

lemma finalizedBy_valid (h : record.Valid schemaVersion key)
    (hcreated : record.createdAtUtcMs.val ≤ now.val) (hlive : now.val < record.expiresAtUtcMs.val)
    (houtcome : validateOutcome outcome = .ok ()) :
    (record.finalizedBy outcome now).Valid Idempotency.schemaVersion key where
  id_valid := h.id_valid
  key_eq := h.key_eq
  fingerprint_valid := h.fingerprint_valid
  token_valid := h.token_valid
  created_nonneg := h.created_nonneg
  created_le := hcreated
  updated_lt := hlive
  outcome_valid := validateStateOutcome_eq_ok.mpr
    (.inr ⟨rfl, outcome, rfl, houtcome, fun hone => absurd hone.1 (by decide)⟩)

/-- A document whose clock is not before the times of its records, and whose records have
tokens. -/
structure Document.Sound (sha256 : String → Fin 32 → UInt8) (document : Document) : Prop where
  valid : document.Valid
  updated_le : ∀ (key : String) (record : RequestRecord), document.records[key]? = some record →
    record.updatedAtUtcMs.val ≤ document.lastNowUtcMs.val
  token_exists : ∀ (key : String) (record : RequestRecord), document.records[key]? = some record →
    ∃ token, validDigest token = true ∧ record.completionTokenSha256 = sha256Hex sha256 token

section
variable {sha256 : String → Fin 32 → UInt8}

lemma default_sound : Document.default.Sound sha256 := by
  have habsent : ∀ (key : String) (record : RequestRecord),
      Document.default.records[key]? = some record → False := by
    intro key record h
    rw [show Document.default.records = ∅ from rfl, TreeMap.getElem?_emptyc] at h
    cases h
  exact ⟨⟨by decide, by decide, by decide, by decide,
    fun key record h => (habsent key record h).elim⟩,
    fun key record h => (habsent key record h).elim,
    fun key record h => (habsent key record h).elim⟩

lemma RequestRecord.Moves.updated_eq (h : record.Moves now record') :
    record'.updatedAtUtcMs = now := by
  cases h <;> rfl

lemma RequestRecord.Moves.token_eq (h : record.Moves now record') :
    record'.completionTokenSha256 = record.completionTokenSha256 := by
  cases h <;> rfl

lemma Committed.sound {call : Call} {document' : Document}
    (h : Committed sha256 call document document') (hsound : document.Sound sha256) :
    document'.Sound sha256 := by
  have hclock := h.clock_le
  have hnow : document'.lastNowUtcMs.val = call.now.val := by rw [h.clock_eq]
  -- a record that the sweep has left was in the document
  have hold : ∀ (key : String) (record : RequestRecord),
      (document.sweep call.now).records[key]? = some record →
        record.updatedAtUtcMs.val ≤ call.now.val ∧
          ∃ token, validDigest token = true ∧
            record.completionTokenSha256 = sha256Hex sha256 token := by
    intro key record hrecord
    have hheld := (sweep_eq_some.mp hrecord).1
    have hupdated := hsound.updated_le key record hheld
    exact ⟨by omega, hsound.token_exists key record hheld⟩
  have hall : ∀ (key : String) (record : RequestRecord), document'.records[key]? = some record →
      record.updatedAtUtcMs.val ≤ call.now.val ∧
        ∃ token, validDigest token = true ∧
          record.completionTokenSha256 = sha256Hex sha256 token := by
    intro key record hrecord
    have hedited := h.edited
    generalize document'.records = records' at hedited hrecord
    cases hedited with
    | same => exact hold key record hrecord
    | fresh requestId fingerprint token expires _ _ _ _ htoken _ _ =>
      rcases insert_eq_some hrecord with ⟨-, rfl⟩ | ⟨-, hrecord⟩
      · exact ⟨Int.le_refl _, token, htoken, rfl⟩
      · exact hold key record hrecord
    | moved requestId token held record' hheld _ _ _ hmoves =>
      rcases insert_eq_some hrecord with ⟨-, rfl⟩ | ⟨-, hrecord⟩
      · rw [hmoves.updated_eq, hmoves.token_eq]
        exact ⟨Int.le_refl _, (hold requestId held hheld).2⟩
      · exact hold key record hrecord
  refine ⟨h.valid, fun key record hrecord => ?_, fun key record hrecord =>
    (hall key record hrecord).2⟩
  rw [hnow]
  exact (hall key record hrecord).1

/-- Every run of calls leaves a document that is sound. -/
lemma after_sound (sha256 : String → Fin 32 → UInt8) (calls : List (StoreIo × Call)) :
    (store.current (after sha256 none calls)).Sound sha256 := by
  unfold after
  refine run_invariant (P := fun file => (store.current file).Sound sha256)
    (fun file call hfile => ?_) default_sound calls
  rcases perform_file sha256 call.1 file call.2 with
    hsame | ⟨document', hwritten, hcommitted⟩
  · rwa [hsame]
  · rw [hwritten]
    exact hcommitted.sound hfile

/-! ## Closing a reservation -/

/-- What `finalize` makes of a document with an open record of the caller. -/
lemma finalize_eq_ok {io : StoreIo} {requestId token : String} (hio : io.Works)
    (hvalid : document.Valid) (hrecord : document.records[requestId]? = some record)
    (hstate : record.state ≠ .finalized) (hcreated : record.createdAtUtcMs.val ≤ now.val)
    (htoken : validDigest token = true)
    (hdigest : record.completionTokenSha256 = sha256Hex sha256 token)
    (houtcome : validateOutcome outcome = .ok ()) (hclock : document.lastNowUtcMs.val ≤ now.val)
    (hlive : now.val < record.expiresAtUtcMs.val) :
    ∃ document', document'.Valid ∧
      finalize sha256 io (some document) requestId record.fingerprintSha256 token outcome now
        = (.ok (publicStatus (record.finalizedBy outcome now)), some document') ∧
      document'.records[requestId]? = some (record.finalizedBy outcome now) := by
  have hheld := hvalid.records_valid requestId record hrecord
  have hswept : (document.sweep now).records[requestId]? = some record :=
    sweep_eq_some.mpr ⟨hrecord, hlive⟩
  let records := (document.sweep now).records.insert requestId (record.finalizedBy outcome now)
  let document' : Document :=
    { schemaVersion := Idempotency.schemaVersion, lastNowUtcMs := now, records }
  have hvalid' : document'.Valid := by
    refine valid_update hvalid hclock ?_ fun key found hfound => ?_
    · have hsize := hvalid.size_le
      have hsweep := sweep_size_le document now
      show ((document.sweep now).records.insert requestId _).size ≤ maxRecords
      rw [size_insert_of_some hswept]
      omega
    · rcases insert_eq_some hfound with ⟨rfl, rfl⟩ | ⟨-, hfound⟩
      · exact .inr (finalizedBy_valid hheld hcreated hlive houtcome)
      · exact .inl (sweep_eq_some.mp hfound).1
  have hoperation : finalizeIn sha256 requestId record.fingerprintSha256 token outcome now
      (document.sweep now)
        = .ok (publicStatus (record.finalizedBy outcome now),
            (document.sweep now).replaceRecord requestId (record.finalizedBy outcome now)) := by
    unfold finalizeIn
    rw [ownedRecord_eq_ok.mpr ⟨hswept, rfl, hdigest⟩]
    simp only [bind, Except.bind, if_neg hstate]
    rfl
  have hedit : mutate now
      (finalizeIn sha256 requestId record.fingerprintSha256 token outcome now) document
        = .ok (publicStatus (record.finalizedBy outcome now), document') :=
    mutate_eq_ok.mpr ⟨hclock, _, hoperation, rfl⟩
  have hchecks : finalizeChecks requestId record.fingerprintSha256 token outcome now = .ok () := by
    have hnonneg := hvalid.clock_nonneg
    unfold finalizeChecks
    rw [bind_unit_eq_ok, bind_unit_eq_ok, bind_unit_eq_ok, bind_unit_eq_ok,
      validateDigest_eq_ok, validateCompletionToken_eq_ok, validateNow_eq_ok]
    exact ⟨hheld.key_eq ▸ hheld.id_valid, hheld.fingerprint_valid, htoken, houtcome, by omega⟩
  have hkept : document'.records[requestId]? = some (record.finalizedBy outcome now) :=
    Std.TreeMap.getElem?_insert_self
  refine ⟨document', hvalid', ?_, hkept⟩
  unfold finalize DocumentStore.guarded
  rw [hchecks]
  refine DocumentStore.transact_eq_ok hio ?_ hedit (validateDocument_eq_ok.mpr hvalid')
    (encodedLength_le hvalid')
  intro held hheld
  cases hheld
  exact ⟨encodedLength_le hvalid, validateDocument_eq_ok.mpr hvalid⟩

/-- In every document that the calls can leave, the owner of an open record that has not expired
can finalize it with any outcome: the document then holds the record finalized so. No document that
passes the check is too long. -/
theorem live_reservation_closes (sha256 : String → Fin 32 → UInt8)
    (calls : List (StoreIo × Call)) :
    (∀ document requestId record, after sha256 none calls = some document →
      document.records[requestId]? = some record → record.state ≠ .finalized →
      (∃ token, validateCompletionToken token = .ok () ∧
        record.completionTokenSha256 = sha256Hex sha256 token) ∧
      ∀ (io : StoreIo) (token : String) (outcome : FinalOutcome) (now : I64), io.Works →
        validateCompletionToken token = .ok () →
        record.completionTokenSha256 = sha256Hex sha256 token →
        validateOutcome outcome = .ok () →
        document.lastNowUtcMs.val ≤ now.val → now.val < record.expiresAtUtcMs.val →
        ∃ document',
          finalize sha256 io (some document) requestId record.fingerprintSha256 token outcome now
            = (.ok (publicStatus (record.finalizedBy outcome now)), some document') ∧
          document'.records[requestId]? = some (record.finalizedBy outcome now) ∧
          validateDocument document' = .ok () ∧ document'.json.encodedLength ≤ maxFileBytes) ∧
    ∀ document, validateDocument document = .ok () →
      document.json.encodedLength ≤ maxFileBytes := by
  refine ⟨fun document requestId record hreach hrecord hstate => ?_, fun document hvalid =>
    encodedLength_le (validateDocument_eq_ok.mp hvalid)⟩
  have hsound : document.Sound sha256 := by
    have hafter := after_sound sha256 calls
    rwa [hreach] at hafter
  constructor
  · obtain ⟨token, htoken, hdigest⟩ := hsound.token_exists requestId record hrecord
    exact ⟨token, validateCompletionToken_eq_ok.mpr htoken, hdigest⟩
  · intro io token outcome now hio htoken hdigest houtcome hclock hlive
    have hcreated := (hsound.valid.records_valid requestId record hrecord).created_le
    have hupdated := hsound.updated_le requestId record hrecord
    obtain ⟨document', hvalid', hfinalize, hkept⟩ := finalize_eq_ok hio hsound.valid hrecord hstate
      (by omega) (validateCompletionToken_eq_ok.mp htoken) hdigest houtcome hclock hlive
    exact ⟨document', hfinalize, hkept, validateDocument_eq_ok.mpr hvalid',
      encodedLength_le hvalid'⟩

/-- SHA-256 of the token of sixty-four zeros. -/
def zerosDigest (_ : String) (index : Fin 32) : UInt8 :=
  ([0x60, 0xe0, 0x5b, 0xd1, 0xb1, 0x95, 0xaf, 0x2f, 0x94, 0x11, 0x2f, 0xa7, 0x19, 0x7a, 0x5c, 0x88,
    0x28, 0x90, 0x58, 0x84, 0x0c, 0xe7, 0xc6, 0xdf, 0x96, 0x93, 0x75, 0x6b, 0xc6, 0x25, 0x0f, 0x55] :
    List UInt8).get index

/-- A reservation made at 0 for a second, by a process that draws only zeros. -/
def reserveExample : List (StoreIo × Call) :=
  [(⟨.acquired, true, .published⟩, .reserve "request" (hexDigest (List.replicate 32 0))
    ⟨1000, by decide⟩ zeroTime (some fun _ => 0))]

theorem live_reservation_closes_reserved :
    ∃ document document' record,
      after zerosDigest none reserveExample = some document ∧
        document.records["request"]? = some record ∧
        finalize zerosDigest ⟨.acquired, true, .published⟩ (some document) "request"
            record.fingerprintSha256 (hexDigest (List.replicate 32 0))
            { kind := .succeeded, code := "done", receiptSha256 := none, replay := none }
            ⟨999, by decide⟩
          = (.ok (publicStatus (record.finalizedBy
              { kind := .succeeded, code := "done", receiptSha256 := none, replay := none }
              ⟨999, by decide⟩)), some document') ∧
        document'.records["request"]? = some (record.finalizedBy
          { kind := .succeeded, code := "done", receiptSha256 := none, replay := none }
          ⟨999, by decide⟩) := by
  have hrun : (after zerosDigest none reserveExample).any (fun document =>
      decide (document.lastNowUtcMs.val ≤ 999) &&
        (document.records["request"]?).any fun record =>
          decide (record.state ≠ .finalized ∧ 999 < record.expiresAtUtcMs.val ∧
            record.completionTokenSha256
              = sha256Hex zerosDigest (hexDigest (List.replicate 32 0)))) = true := by
    decide
  obtain ⟨document, hdocument, hrun⟩ := (Option.any_eq_true _ _).mp hrun
  rw [Bool.and_eq_true, decide_eq_true_eq] at hrun
  obtain ⟨record, hrecord, hchecks⟩ := (Option.any_eq_true _ _).mp hrun.2
  obtain ⟨hstate, hlive, hdigest⟩ := of_decide_eq_true hchecks
  obtain ⟨document', hfinalize, hkept, -⟩ :=
    ((live_reservation_closes _ reserveExample).1 document "request" record hdocument hrecord
      hstate).2 ⟨.acquired, true, .published⟩ (hexDigest (List.replicate 32 0))
      { kind := .succeeded, code := "done", receiptSha256 := none, replay := none }
      ⟨999, by decide⟩ ⟨rfl, rfl, rfl⟩ (by decide) hdigest (by decide) hrun.1 hlive
  exact ⟨document, document', record, hdocument, hrecord, hfinalize, hkept⟩

end

end Agenterm.Cu.Idempotency
