import Mathlib.Algebra.Order.Field.Rat
import Mathlib.Tactic.NormNum
import Watchd.Cdc.Stream
import Watchd.Cdc.Validation

/-!
# The reader's configuration

`NewReader` fills in defaults and checks the result, so that a reader only ever
runs with an admitted configuration.  Durations are in nanoseconds; fractions are
exact.

`newReader_eq_ok` gives the conditions a reader was made under
(`FullReaderConfig.Admitted`).
-/

namespace Watchd.Cdc

/-- How a reader reconnects; `maxAttempts` counts the retries after the first attempt. -/
structure RetryPolicy where
  initialBackoff : Int := 0
  maxBackoff : Int := 0
  maxAttempts : Int := 0
  jitter : ℚ := 0
  deriving DecidableEq

/-- The configuration of a reader, with what its stream does not read. -/
structure FullReaderConfig extends ReaderConfig where
  databaseURL : String
  slotName : String
  publicationName : String
  snapshotBatchRows : Int := 0
  connectionTimeout : Int := 0
  statusInterval : Int := 0
  shutdownTimeout : Int := 0
  retryPolicy : RetryPolicy := {}
  maxRetainedWALBytes : Int := 0
  retentionCheckInterval : Int := 0
  retentionSampleInterval : Int := 0
  retentionWarnFraction : ℚ := 0
  retentionDegradeFraction : ℚ := 0
  deriving DecidableEq

/-! ## Defaults -/

/-- How long one attempt to connect may take, 10 s. -/
def defaultConnectionTimeout : Int := 10 * 1000000000

/-- Between two standby status updates, 10 s. -/
def defaultStatusInterval : Int := 10 * 1000000000

/-- How long the cleanup of a connection may take, 5 s. -/
def defaultShutdownTimeout : Int := 5 * 1000000000

/-- The first delay before a reconnect, 250 ms. -/
def defaultInitialBackoff : Int := 250 * 1000000

/-- The longest delay before a reconnect, 10 s. -/
def defaultMaxBackoff : Int := 10 * 1000000000

/-- Retries after the initial attempt. -/
def defaultMaxAttempts : Int := 8

/-- The part of a delay that is random. -/
def defaultJitter : ℚ := 20 / 100

/-- Rows per page of a snapshot. -/
def defaultSnapshotBatchRows : Int := 1000

/-- The budget for WAL that the slot retains, 1 GiB. -/
def defaultMaxRetainedWALBytes : Int := 2 ^ 30

/-- Between two reads of the server's own limit, 5 min. -/
def defaultRetentionCheckInterval : Int := 5 * 60 * 1000000000

/-- Between two samples of the retained WAL, 30 s. -/
def defaultRetentionSampleInterval : Int := 30 * 1000000000

/-- The part of the budget at which the policy warns. -/
def defaultRetentionWarnFraction : ℚ := 5 / 10

/-- The part of the budget at which the policy degrades. -/
def defaultRetentionDegradeFraction : ℚ := 8 / 10

/-- A field that is zero takes its default. -/
def orDefault {α : Type} [Zero α] [DecidableEq α] (value default : α) : α :=
  if value = 0 then default else value

/-- A zero field takes its default. -/
def normalizeReaderConfig (config : FullReaderConfig) : FullReaderConfig :=
  { config with
    maxTransactionBytes := orDefault config.maxTransactionBytes defaultMaxTransactionBytes
    maxTransactionChanges := orDefault config.maxTransactionChanges defaultMaxTransactionChanges
    maxValueBytes := orDefault config.maxValueBytes defaultMaxValueBytes
    snapshotBatchRows := orDefault config.snapshotBatchRows defaultSnapshotBatchRows
    connectionTimeout := orDefault config.connectionTimeout defaultConnectionTimeout
    statusInterval := orDefault config.statusInterval defaultStatusInterval
    shutdownTimeout := orDefault config.shutdownTimeout defaultShutdownTimeout
    maxRetainedWALBytes := orDefault config.maxRetainedWALBytes defaultMaxRetainedWALBytes
    retentionCheckInterval := orDefault config.retentionCheckInterval defaultRetentionCheckInterval
    retentionSampleInterval :=
      orDefault config.retentionSampleInterval defaultRetentionSampleInterval
    retentionWarnFraction := orDefault config.retentionWarnFraction defaultRetentionWarnFraction
    retentionDegradeFraction :=
      orDefault config.retentionDegradeFraction defaultRetentionDegradeFraction
    retryPolicy :=
      { initialBackoff := orDefault config.retryPolicy.initialBackoff defaultInitialBackoff
        maxBackoff := orDefault config.retryPolicy.maxBackoff defaultMaxBackoff
        maxAttempts := orDefault config.retryPolicy.maxAttempts defaultMaxAttempts
        jitter := orDefault config.retryPolicy.jitter defaultJitter } }

/-! ## Validation -/

/-- The checks of a normalized configuration, in the order of the source; `hasSink` tells whether
a transaction sink was given. -/
def validateReaderConfig (config : FullReaderConfig) (hasSink : Bool) : Except GoError Unit :=
  if config.databaseURL = "" ∨ config.sourceID = "" ∨ config.slotName = "" ∨
      config.publicationName = "" ∨ !hasSink then
    .error (.sentinel .invalidReaderConfig)
  else if !postgresIdentifier config.slotName ∨ !postgresIdentifier config.publicationName then
    .error (errorf .invalidReaderConfig
      ": slot and publication names must be unquoted PostgreSQL identifiers")
  else if config.maxTransactionBytes ≤ 0 ∨ config.maxTransactionChanges ≤ 0 ∨
      config.maxValueBytes ≤ 0 ∨ config.snapshotBatchRows ≤ 0 ∨ config.connectionTimeout ≤ 0 ∨
      config.statusInterval ≤ 0 ∨ config.shutdownTimeout ≤ 0 then
    .error (.sentinel .invalidReaderConfig)
  else if config.maxRetainedWALBytes ≤ 0 ∨ config.retentionCheckInterval ≤ 0 ∨
      config.retentionSampleInterval ≤ 0 then
    .error (.sentinel .invalidReaderConfig)
  else if ¬(0 < config.retentionWarnFraction ∧
      config.retentionWarnFraction < config.retentionDegradeFraction ∧
      config.retentionDegradeFraction < 1) then
    .error (errorf .invalidReaderConfig
      ": retention thresholds must satisfy 0 < warn < degrade < 1")
  else if config.maxValueBytes > config.maxTransactionBytes then
    .error (errorf .invalidReaderConfig ": MaxValueBytes must not exceed MaxTransactionBytes")
  else if config.retryPolicy.initialBackoff ≤ 0 ∨
      config.retryPolicy.maxBackoff < config.retryPolicy.initialBackoff ∨
      config.retryPolicy.maxAttempts < 0 ∨ config.retryPolicy.jitter < 0 ∨
      config.retryPolicy.jitter > 1 then
    .error (.sentinel .invalidReaderConfig)
  else .ok ()

/-- `NewReader`: the configuration the reader runs with. -/
def newReader (config : FullReaderConfig) (hasSink : Bool) : Except GoError FullReaderConfig :=
  let config := normalizeReaderConfig config
  match validateReaderConfig config hasSink with
  | .error err => .error err
  | .ok () => .ok config

/-- What `validateReaderConfig` admits. -/
structure FullReaderConfig.Admitted (config : FullReaderConfig) : Prop where
  names : config.databaseURL ≠ "" ∧ config.sourceID ≠ "" ∧ config.slotName ≠ "" ∧
    config.publicationName ≠ ""
  identifiers : postgresIdentifier config.slotName ∧ postgresIdentifier config.publicationName
  bounds : 0 < config.maxTransactionBytes ∧ 0 < config.maxTransactionChanges ∧
    0 < config.maxValueBytes ∧ 0 < config.snapshotBatchRows ∧ 0 < config.connectionTimeout ∧
    0 < config.statusInterval ∧ 0 < config.shutdownTimeout
  retention : 0 < config.maxRetainedWALBytes ∧ 0 < config.retentionCheckInterval ∧
    0 < config.retentionSampleInterval
  thresholds : 0 < config.retentionWarnFraction ∧
    config.retentionWarnFraction < config.retentionDegradeFraction ∧
    config.retentionDegradeFraction < 1
  value_le : config.maxValueBytes ≤ config.maxTransactionBytes
  retry : 0 < config.retryPolicy.initialBackoff ∧
    config.retryPolicy.initialBackoff ≤ config.retryPolicy.maxBackoff ∧
    0 ≤ config.retryPolicy.maxAttempts ∧ 0 ≤ config.retryPolicy.jitter ∧
    config.retryPolicy.jitter ≤ 1

theorem validateReaderConfig_eq_ok_iff {config : FullReaderConfig} :
    validateReaderConfig config true = .ok () ↔ config.Admitted := by
  unfold validateReaderConfig
  constructor
  · intro h
    split at h
    · cases h
    · next hnames =>
      split at h
      · cases h
      · next hidentifiers =>
        split at h
        · cases h
        · next hbounds =>
          split at h
          · cases h
          · next hretention =>
            split at h
            · cases h
            · next hthresholds =>
              split at h
              · cases h
              · next hvalue =>
                split at h
                · cases h
                · next hretry =>
                  simp only [not_or, not_le, not_lt, gt_iff_lt] at hbounds hretention hretry
                  exact ⟨by simpa using hnames, by simpa using hidentifiers, hbounds, hretention,
                    not_not.1 hthresholds, not_lt.1 hvalue, hretry⟩
  · intro h
    obtain ⟨hnames, hidentifiers, hbounds, hretention, hthresholds, hvalue, hretry⟩ := h
    rw [if_neg (by simpa using hnames), if_neg (by simpa using hidentifiers),
      if_neg (by simpa only [not_or, not_le] using hbounds),
      if_neg (by simpa only [not_or, not_le] using hretention), if_neg (not_not.2 hthresholds),
      if_neg (not_lt.2 hvalue),
        if_neg (by simpa only [not_or, not_le, not_lt, gt_iff_lt] using hretry)]

theorem newReader_eq_ok {config config' : FullReaderConfig}
    (h : newReader config true = .ok config') :
    config' = normalizeReaderConfig config ∧ config'.Admitted := by
  unfold newReader at h
  dsimp only at h
  split at h
  · cases h
  · next hvalid =>
    cases h
    exact ⟨rfl, validateReaderConfig_eq_ok_iff.1 hvalid⟩

/-- A configuration that gives the names and leaves the rest to the defaults. -/
def namesOnly (sourceID databaseURL slotName publicationName : String) : FullReaderConfig where
  toReaderConfig := ⟨sourceID, 0, 0, 0⟩
  databaseURL := databaseURL
  slotName := slotName
  publicationName := publicationName

/-- Every default passes the checks. -/
theorem newReader_namesOnly {sourceID databaseURL slotName publicationName : String}
    (hsource : sourceID ≠ "") (hdatabase : databaseURL ≠ "") (hslot : postgresIdentifier slotName)
    (hpublication : postgresIdentifier publicationName) :
    newReader (namesOnly sourceID databaseURL slotName publicationName) true =
      .ok (normalizeReaderConfig (namesOnly sourceID databaseURL slotName publicationName)) := by
  have hne : ∀ name, postgresIdentifier name → name ≠ "" := by
    rintro _ h rfl
    cases h
  have hadmitted :
      (normalizeReaderConfig
        (namesOnly sourceID databaseURL slotName publicationName)).Admitted := by
    refine ⟨⟨hdatabase, hsource, hne _ hslot, hne _ hpublication⟩,
      ⟨hslot, hpublication⟩, ?_, ?_, ?_,
      ?_, ?_⟩ <;> simp only [normalizeReaderConfig, namesOnly, orDefault, if_true]
    · decide
    · decide
    · norm_num [defaultRetentionWarnFraction, defaultRetentionDegradeFraction]
    · decide
    · norm_num [defaultInitialBackoff, defaultMaxBackoff, defaultMaxAttempts, defaultJitter]
  simp only [newReader, validateReaderConfig_eq_ok_iff.2 hadmitted]

end Watchd.Cdc
