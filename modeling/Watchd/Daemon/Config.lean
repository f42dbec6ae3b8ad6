import Watchd.Cdc.Config
import Watchd.Server.Cursors
import Watchd.Watch.Hub

/-!
# The configuration of a process

`LoadConfig` decodes a file, adds the database URL from the environment and checks
the whole by building what the process is made of: the reader's configuration, the
projections and the server.  Two things follow for every configuration that loads:
the components it is for accept it, and what is wrong with one that does not load
is said without the database URL.

These are `loadConfig_builds` and `loadConfig_hides_url`.
-/

namespace Watchd.Wire

open Watchd.Cdc

/-- `server.ErrInvalidConfig`. -/
def errInvalidConfig : GoError := .new "server: invalid configuration"

/-- 1 MiB. -/
def defaultMaxRowsMessageBytes : Int := 2 ^ 20

/-- `server.New`, for a server without instruments. -/
def Server.new (lsnString : Nat → String) (size : WireRow → Nat) (sourceID : String)
    (maxRowsMessageBytes : Int) (hasWatcher : Bool) : Except GoError Server :=
  if sourceID = "" ∨ '@' ∈ sourceID.toList ∨ !hasWatcher ∨ maxRowsMessageBytes < 0 then
    .error errInvalidConfig
  else
    .ok ⟨sourceID, (orDefault maxRowsMessageBytes defaultMaxRowsMessageBytes).toNat,
      lsnString, size⟩

end Watchd.Wire

namespace Watchd.Daemon

open Watchd.Cdc Watchd.Watch

/-- The variable the database URL is read from. -/
def databaseURLEnv : String := "WATCHD_DATABASE_URL"

/-- `daemon.ErrInvalidConfig`. -/
def errInvalidConfig : GoError := .new "daemon: invalid configuration"

/-- `fmt.Errorf("%w" + after, ErrInvalidConfig)`. -/
def invalidConfig (after : String) : GoError := .wrap "" errInvalidConfig after

/-- 10 s. -/
def defaultShutdownTimeout : Int := 10 * 1000000000

/-- A projection of the configuration file. -/
structure ProjectionConfig where
  schema : String
  table : String
  scopeColumn : String
  primaryKey : List String
  deriving DecidableEq

/-- The operations endpoint of the configuration file. -/
structure OpsConfig where
  listenAddress : String := ""
  pprof : Bool := false
  mutexProfileFraction : Int := 0
  blockProfileRate : Int := 0
  deriving DecidableEq

/-- The retention budget of the configuration file; a zero field takes the reader's default. -/
structure RetentionConfig where
  maxRetainedWALBytes : Int := 0
  warnFraction : ℚ := 0
  degradeFraction : ℚ := 0
  sampleInterval : Int := 0
  deriving DecidableEq

/-- `Config`, with the projections in the order the map is ranged over. -/
structure Config where
  sourceID : String
  slotName : String
  publicationName : String
  listenAddress : String
  projections : List (String × ProjectionConfig)
  shutdownTimeout : Int := 0
  ops : OpsConfig := {}
  retention : RetentionConfig := {}
  databaseURL : String := ""
  deriving DecidableEq

/-- Profiles need pprof, and pprof an address. -/
def OpsConfig.validate (o : OpsConfig) : Except GoError Unit :=
  if o.mutexProfileFraction < 0 ∨ o.blockProfileRate < 0 then
    .error (invalidConfig ": ops profile rates must not be negative")
  else if (o.mutexProfileFraction > 0 ∨ o.blockProfileRate > 0) ∧ !o.pprof then
    .error (invalidConfig
      ": ops.mutex_profile_fraction and ops.block_profile_rate require ops.pprof")
  else if o.pprof ∧ o.listenAddress = "" then
    .error (invalidConfig ": ops.pprof requires ops.listen_address")
  else .ok ()

namespace Config

/-- The configuration of the reader. -/
def readerConfig (c : Config) : FullReaderConfig where
  databaseURL := c.databaseURL
  sourceID := c.sourceID
  slotName := c.slotName
  publicationName := c.publicationName
  maxTransactionBytes := 0
  maxTransactionChanges := 0
  maxValueBytes := 0
  maxRetainedWALBytes := c.retention.maxRetainedWALBytes
  retentionWarnFraction := c.retention.warnFraction
  retentionDegradeFraction := c.retention.degradeFraction
  retentionSampleInterval := c.retention.sampleInterval

/-- The spec of a projection. -/
def projectionSpec (c : Config) (projection : ProjectionConfig) : ProjectionSpec where
  sourceID := c.sourceID
  schema := projection.schema
  table := projection.table
  scopeColumn := projection.scopeColumn
  primaryKey := projection.primaryKey

/-- The specs by the names of their projections. -/
def projectionSpecs (c : Config) : List (String × ProjectionSpec) :=
  c.projections.map fun np => (np.1, c.projectionSpec np.2)

/-- The configuration of the hub. -/
def hubConfig (c : Config) : Watch.Config where
  sourceID := c.sourceID
  projections := c.projectionSpecs

/-- The loop of `validate` over the projections. -/
def validateProjections (specs : List (String × ProjectionSpec)) : Except GoError Unit :=
  specs.forM fun np => (validateProjectionSpecConfig np.2).mapError fun err =>
    invalidConfig (": projection " ++ quote np.1 ++ ": " ++ err.text)

/-- The checks of a configuration, in the order of the source. -/
def validate (c : Config) : Except GoError Unit :=
  if c.databaseURL = "" then
    .error (invalidConfig (": " ++ databaseURLEnv ++ " is not set"))
  else if c.listenAddress = "" then
    .error (invalidConfig ": listen_address is required")
  else if c.projections.length = 0 then
    .error (invalidConfig ": at least one projection is required")
  else if c.shutdownTimeout < 0 then
    .error (invalidConfig ": shutdown_timeout must not be negative")
  else do
    c.ops.validate
    let _ ← (newReader c.readerConfig true).mapError fun err =>
      -- the reader's configuration errors never include the URL
      invalidConfig (": source: " ++ err.text)
    validateProjections c.projectionSpecs
    let _ ← (Wire.Server.new (fun _ => "") (fun _ => 0) c.sourceID 0 true).mapError fun err =>
      invalidConfig (": source_id: " ++ err.text)

end Config

/-! ## Loading -/

/-- What the JSON and YAML libraries make of a file: why they refuse it, or the object it starts
with and whether more follows. -/
inductive Decoded
  | refused (why : String)
  | object (cfg : Config) (more : Bool)

/-- The configuration with the URL of the environment. -/
def Config.withURL (c : Config) (databaseURL : String) : Config :=
  { c with databaseURL := databaseURL }

/-- The configuration with its shutdown timeout, or the default one. -/
def Config.withTimeout (c : Config) : Config :=
  { c with shutdownTimeout := orDefault c.shutdownTimeout defaultShutdownTimeout }

/-- `ParseJSONConfig`, from where the data is decoded. -/
def parseConfig (databaseURL : String) : Decoded → Except GoError Config
  | .refused why => .error (invalidConfig (": " ++ why))
  | .object _ true => .error (invalidConfig ": trailing data after the configuration object")
  | .object cfg false =>
    let cfg := (cfg.withURL databaseURL).withTimeout
    match cfg.validate with
    | .error err => .error err
    | .ok () => .ok cfg

/-- `filepath.Ext`. -/
def ext (path : String) : String :=
  let tail := path.toList.reverse.takeWhile (· ≠ '/')
  if '.' ∈ tail then "." ++ .ofList (tail.takeWhile (· ≠ '.')).reverse else ""

/-- `LoadConfig`: `file` is what opening the path gives, `json` and `yaml` are the decoders. -/
def loadConfig {α : Type} (json yaml : α → Decoded) (path : String) (file : Except String α)
    (databaseURL : String) : Except GoError Config :=
  match file with
  | .error why => .error (invalidConfig (": " ++ why))
  | .ok data =>
    match (ext path).toLower with
    | ".json" => parseConfig databaseURL (json data)
    | ".yaml" | ".yml" => parseConfig databaseURL (yaml data)
    | _ =>
      .error (invalidConfig
        (": " ++ path ++ ": unknown configuration format; use .json, .yaml, or .yml"))

/-! ## What loads -/

theorem mapError_eq_ok {α ε ε' : Type} {f : ε → ε'} {x : Except ε α} {a : α} :
    x.mapError f = .ok a ↔ x = .ok a := by
  cases x <;> simp [Except.mapError]

/-- What `validate` admits. -/
structure Config.Valid (c : Config) : Prop where
  url : c.databaseURL ≠ ""
  listens : c.listenAddress ≠ ""
  projections : c.projections.length ≠ 0
  timeout : 0 ≤ c.shutdownTimeout
  ops : c.ops.validate = .ok ()
  reader : ∃ reader, newReader c.readerConfig true = .ok reader
  specs : ∀ np ∈ c.projectionSpecs, validateProjectionSpecConfig np.2 = .ok ()
  source : c.sourceID ≠ "" ∧ '@' ∉ c.sourceID.toList

theorem server_new_eq_ok {lsnString : Nat → String} {size : Wire.WireRow → Nat}
    {sourceID : String} :
    (∃ srv, Wire.Server.new lsnString size sourceID 0 true = .ok srv) ↔
      sourceID ≠ "" ∧ '@' ∉ sourceID.toList := by
  unfold Wire.Server.new
  split
  · next h =>
    have hrefused : sourceID = "" ∨ '@' ∈ sourceID.toList := by simpa using h
    simp only [reduceCtorEq, exists_false, false_iff, not_and_or, not_not, ne_eq]
    exact hrefused
  · next h =>
    simp only [not_or] at h
    simp only [Except.ok.injEq, exists_eq', true_iff]
    exact ⟨h.1, h.2.1⟩

theorem Config.validate_eq_ok_iff {c : Config} : c.validate = .ok () ↔ c.Valid := by
  unfold validate
  constructor
  · intro h
    split_ifs at h with hurl hlistens hprojections htimeout
    obtain ⟨_, hops, h⟩ := Lib.bind_eq_ok.1 h
    obtain ⟨reader, hreader, h⟩ := Lib.bind_eq_ok.1 h
    obtain ⟨_, hspecs, h⟩ := Lib.bind_eq_ok.1 h
    obtain ⟨srv, hsrv, -⟩ := Lib.bind_eq_ok.1 h
    exact {
      url := hurl
      listens := hlistens
      projections := hprojections
      timeout := not_lt.1 htimeout
      ops := hops
      reader := ⟨reader, mapError_eq_ok.1 hreader⟩
      specs := fun np hnp => mapError_eq_ok.1 (Lib.forM_eq_ok.1 hspecs np hnp)
      source := server_new_eq_ok.1 ⟨srv, mapError_eq_ok.1 hsrv⟩ }
  · intro h
    obtain ⟨reader, hreader⟩ := h.reader
    obtain ⟨srv, hsrv⟩ := server_new_eq_ok.2 h.source
    have hspecs : validateProjections c.projectionSpecs = .ok () :=
      Lib.forM_eq_ok.2 fun np hnp => mapError_eq_ok.2 (h.specs np hnp)
    rw [if_neg h.url, if_neg h.listens, if_neg h.projections, if_neg (not_lt.2 h.timeout)]
    exact Lib.bind_eq_ok.2 ⟨(), h.ops, Lib.bind_eq_ok.2 ⟨reader, mapError_eq_ok.2 hreader,
      Lib.bind_eq_ok.2 ⟨(), hspecs, Lib.bind_eq_ok.2 ⟨srv, mapError_eq_ok.2 hsrv, rfl⟩⟩⟩⟩

theorem parseConfig_eq_ok {databaseURL : String} {decoded : Decoded} {cfg : Config}
    (h : parseConfig databaseURL decoded = .ok cfg) : cfg.Valid := by
  unfold parseConfig at h
  split at h
  · cases h
  · cases h
  · dsimp only at h
    split at h
    · cases h
    · next hvalid =>
      cases h
      exact Config.validate_eq_ok_iff.1 hvalid

section Loading

variable {α : Type} {json yaml : α → Decoded} {path databaseURL : String} {file : Except String α}

theorem loadConfig_valid {cfg : Config} (h : loadConfig json yaml path file databaseURL = .ok cfg) :
    cfg.Valid := by
  unfold loadConfig at h
  split at h
  · cases h
  · split at h
    · exact parseConfig_eq_ok h
    · exact parseConfig_eq_ok h
    · exact parseConfig_eq_ok h
    · cases h

end Loading

theorem Config.mem_projectionSpecs {c : Config} {np : String × ProjectionSpec}
    (h : np ∈ c.projectionSpecs) :
    np.2.sourceID = c.sourceID ∧ ∃ p ∈ c.projections, p.1 = np.1 := by
  obtain ⟨p, hp, rfl⟩ := List.mem_map.1 h
  exact ⟨rfl, p, hp, rfl⟩

/-- The hub refuses only a projection without a name, in whatever order the map is ranged over. -/
theorem Config.Valid.hub_new {c : Config} (h : c.Valid) {specs : List (String × ProjectionSpec)}
    (hspecs : specs.Perm c.projectionSpecs) (parseLSN : String → Option Nat) :
    (∃ hub, Hub.new parseLSN { c.hubConfig with projections := specs } = .ok hub) ↔
      ∀ np ∈ c.projections, np.1 ≠ "" := by
  have hlength : specs.length ≠ 0 := by
    rw [hspecs.length_eq, projectionSpecs, List.length_map]
    exact h.projections
  -- every spec is of this source, so what is left of the hub's check is the name
  have hrefused : (specs.find? fun np => np.1 = "" ∨ np.2.sourceID ≠ c.sourceID) = none ↔
      ∀ np ∈ c.projections, np.1 ≠ "" := by
    rw [List.find?_eq_none]
    constructor
    · intro hnone p hp hname
      have hmem : (p.1, c.projectionSpec p.2) ∈ c.projectionSpecs :=
        List.mem_map.2 ⟨p, hp, rfl⟩
      exact hnone _ (hspecs.mem_iff.2 hmem) (decide_eq_true (.inl hname))
    · intro hnamed np hnp hbad
      obtain ⟨hsource, p, hp, hname⟩ := mem_projectionSpecs (hspecs.mem_iff.1 hnp)
      rcases of_decide_eq_true hbad with hempty | hother
      · exact hnamed p hp (hname.trans hempty)
      · exact hother hsource
  rw [← hrefused]
  have hqueue : ¬(defaultMaxReplayTransactions < 0 ∨ defaultWatcherQueue < 0) := by decide
  unfold Hub.new hubConfig
  simp only [if_neg (not_or.2 ⟨h.source.1, hlength⟩), if_true, if_neg hqueue]
  cases specs.find? fun np => np.1 = "" ∨ np.2.sourceID ≠ c.sourceID with
  | none => simp
  | some np => simp

/-- **What loads can be built.**  The reader, the server and every projection of a configuration
that loads pass their own checks: the reader's configuration is admitted, the source can stand in a
cursor, and every projection belongs to the source and is scoped by a column of its key.  The hub
accepts it too, whatever the order of its projections, unless one of them has no name, which loading
does not look at. -/
theorem loadConfig_builds {α : Type} {json yaml : α → Decoded} {path databaseURL : String}
    {file : Except String α} {cfg : Config}
    (h : loadConfig json yaml path file databaseURL = .ok cfg) (parseLSN : String → Option Nat)
    (lsnString : Nat → String) (size : Wire.WireRow → Nat) :
    (∃ reader, newReader cfg.readerConfig true = .ok reader ∧ reader.Admitted ∧
      reader.sourceID = cfg.sourceID) ∧
    (∃ srv, Wire.Server.new lsnString size cfg.sourceID 0 true = .ok srv ∧ srv.Serves) ∧
    (∀ np ∈ cfg.projectionSpecs, np.2.sourceID = cfg.sourceID ∧ np.2.scopeColumn ∈ np.2.primaryKey ∧
      np.2.primaryKey.Nodup) ∧
    ∀ specs, specs.Perm cfg.projectionSpecs →
      ((∃ hub, Hub.new parseLSN { cfg.hubConfig with projections := specs } = .ok hub) ↔
        ∀ np ∈ cfg.projections, np.1 ≠ "") := by
  have hvalid := loadConfig_valid h
  obtain ⟨reader, hreader⟩ := hvalid.reader
  obtain ⟨rfl, hadmitted⟩ := newReader_eq_ok hreader
  obtain ⟨srv, hsrv⟩ : ∃ srv, Wire.Server.new lsnString size cfg.sourceID 0 true = .ok srv :=
    server_new_eq_ok.2 hvalid.source
  refine ⟨⟨_, hreader, hadmitted, rfl⟩, ⟨srv, hsrv, ?_⟩, fun np hnp => ?_, fun specs hspecs =>
    hvalid.hub_new hspecs parseLSN⟩
  · unfold Wire.Server.new at hsrv
    split at hsrv
    · cases hsrv
    · cases hsrv
      exact hvalid.source
  · have hspec := hvalid.specs np hnp
    exact ⟨(Config.mem_projectionSpecs hnp).1, scopeColumn_mem_primaryKey hspec,
      primaryKey_nodup hspec⟩

namespace Demo

/-- One projection, and no setting that has a default. -/
def notesFile : Config where
  sourceID := "notes-db"
  slotName := "watchd"
  publicationName := "watchd"
  listenAddress := "127.0.0.1:7070"
  projections := [("notes", ⟨"public", "notes", "owner", ["owner", "id"]⟩)]

/-- What is loaded from it. -/
def notesProcess : Config :=
  { notesFile with shutdownTimeout := defaultShutdownTimeout, databaseURL := "postgres://db" }

theorem notesProcess_valid : notesProcess.Valid where
  url := by decide
  listens := by decide
  projections := by decide
  timeout := by decide
  ops := by decide
  reader := ⟨_, newReader_namesOnly (by decide) (by decide) (by decide) (by decide)⟩
  specs := by decide
  source := by decide

theorem notes_loads : loadConfig (fun cfg => .object cfg false) (fun _ => .refused "") "notes.JSON"
    (.ok notesFile) "postgres://db" = .ok notesProcess := by
  have hvalid : notesProcess.validate = .ok () := Config.validate_eq_ok_iff.2 notesProcess_valid
  have hext : (ext "notes.JSON").toLower = ".json" := by decide +kernel
  simp only [loadConfig, hext]
  show (match notesProcess.validate with
    | .error err => .error err
    | .ok () => .ok notesProcess) = Except.ok notesProcess
  rw [hvalid]

end Demo

theorem loadConfig_builds_notes :
    ∃ hub, Hub.new (fun _ => none) Demo.notesProcess.hubConfig = .ok hub :=
  ((loadConfig_builds Demo.notes_loads (fun _ => none) (fun _ => "") fun _ => 0).2.2.2 _
    (.refl _)).2 (by decide)

/-! ## What is said about the database URL -/

/-- The reader's checks read the URL only to see that there is one. -/
theorem validateReaderConfig_url {url url' : String} (h : url ≠ "") (h' : url' ≠ "")
    (config : FullReaderConfig) (hasSink : Bool) :
    validateReaderConfig { config with databaseURL := url } hasSink =
      validateReaderConfig { config with databaseURL := url' } hasSink := by
  unfold validateReaderConfig
  simp only [h, h', false_or]

theorem newReader_url {url url' : String} (h : url ≠ "") (h' : url' ≠ "")
    (config : FullReaderConfig) {β : Type} (f : GoError → GoError) (rest : Except GoError β) :
    ((newReader { config with databaseURL := url } true).mapError f >>= fun _ => rest) =
      ((newReader { config with databaseURL := url' } true).mapError f >>= fun _ => rest) := by
  have hnormal : ∀ url, normalizeReaderConfig { config with databaseURL := url } =
      { normalizeReaderConfig config with databaseURL := url } := fun _ => rfl
  unfold newReader
  rw [hnormal url, hnormal url']
  simp only [validateReaderConfig_url h h']
  cases validateReaderConfig { normalizeReaderConfig config with databaseURL := url' } true <;> rfl

theorem Config.validate_url {url url' : String} (h : url ≠ "") (h' : url' ≠ "") (c : Config) :
    (c.withURL url).validate = (c.withURL url').validate := by
  have hreader : ∀ url, (c.withURL url).readerConfig = { c.readerConfig with databaseURL := url } :=
    fun _ => rfl
  have hset : (c.withURL url).databaseURL ≠ "" := h
  have hset' : (c.withURL url').databaseURL ≠ "" := h'
  unfold validate
  rw [if_neg hset, if_neg hset']
  simp only [hreader, newReader_url h h']
  rfl

/-- **Loading says nothing about the URL.**  Two environments that both set a URL get the same
answer: the same error, word for word, or the same configuration but for the URL itself. -/
theorem loadConfig_hides_url {α : Type} (json yaml : α → Decoded) (path : String)
    (file : Except String α) {url url' : String} (h : url ≠ "") (h' : url' ≠ "") :
    (loadConfig json yaml path file url).map (·.withURL "") =
      (loadConfig json yaml path file url').map (·.withURL "") := by
  have hparse : ∀ decoded, (parseConfig url decoded).map (·.withURL "") =
      (parseConfig url' decoded).map (·.withURL "") := by
    rintro (why | ⟨cfg, more | more⟩)
    · rfl
    · have hvalidate : ((cfg.withURL url).withTimeout).validate =
          ((cfg.withURL url').withTimeout).validate := Config.validate_url h h' cfg.withTimeout
      simp only [parseConfig, hvalidate]
      cases ((cfg.withURL url').withTimeout).validate <;> rfl
    · rfl
  unfold loadConfig
  cases file with
  | error why => rfl
  | ok data =>
    dsimp only
    split
    · exact hparse (json data)
    · exact hparse (yaml data)
    · exact hparse (yaml data)
    · rfl

theorem loadConfig_hides_url_notes :
    ∃ cfg, loadConfig (fun cfg => .object cfg false) (fun _ => .refused "") "notes.JSON"
      (.ok Demo.notesFile) "postgres://other" = .ok cfg ∧
      cfg.withURL "" = Demo.notesProcess.withURL "" := by
  have hdb : "postgres://db" ≠ "" := by decide
  have hset : "postgres://other" ≠ "" := by decide
  have hsame := loadConfig_hides_url (fun cfg => .object cfg false) (fun _ => .refused "")
    "notes.JSON" (.ok Demo.notesFile) hdb hset
  rw [Demo.notes_loads] at hsame
  cases hother : loadConfig (fun cfg => .object cfg false) (fun _ => .refused "") "notes.JSON"
      (.ok Demo.notesFile) "postgres://other" with
  | error err =>
    rw [hother] at hsame
    cases hsame
  | ok cfg =>
    rw [hother] at hsame
    exact ⟨cfg, rfl, (Except.ok.inj hsame).symm⟩

end Watchd.Daemon
