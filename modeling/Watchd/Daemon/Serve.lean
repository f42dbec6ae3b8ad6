import Watchd.Cdc.Sessions
import Watchd.Daemon.Config

/-!
# One process, from its start to its exit code

`Run` listens and `Serve` builds the components, starts them in order, waits, and
takes them down in the opposite order, with an early return at every step that may
fail.  Here it is the program of its calls on the listeners, the telemetry, the ops
endpoint, the source and the gRPC server.  Every call of every run is in order, a
process that returns has left nothing behind, and its exit code tells why it ended.

`runCommand_tells` puts the three together for the whole command.
-/

namespace Watchd.Daemon

open Watchd.Cdc Watchd.Watch Watchd.Lib

/-- `ErrSource`. -/
def errSource : GoError := .new "daemon: source failed"

/-- `telemetry.ErrInvalidEnvironment`. -/
def errInvalidEnvironment : GoError := .new "telemetry: invalid OpenTelemetry environment"

/-! ## Calls -/

/-- Which channel `Serve` received from. -/
inductive Wake
  | cancelled
  | sourceDone (err : Option GoError)
  | serveDone (err : GoError)

/-- What `Serve` asks of its environment. -/
inductive Step
  | listenAPI
  | listenOps
  | closeAPI
  | closeOps
  | setupTelemetry
  | shutdownTelemetry
  | registerServingGauge
  | serveOps
  | shutdownOps
  | closeOpsServer
  | startSource
  | serveAPI
  | setServing (value : Bool)
  | select
  | stopHub
  | gracefulStop
  /-- waits for the server to drain, for as long as the timeout -/
  | drained
  | stopServer
  | awaitDrained
  | stopSource
  /-- waits for the source to be done, for as long as the timeout -/
  | sourceStopped

/-- What a call returns: an error where it may fail, whether it was in time where it waits. -/
abbrev Step.Outcome : Step → Type
  | .listenAPI | .listenOps | .setupTelemetry | .shutdownTelemetry | .registerServingGauge
  | .shutdownOps | .startSource => Option GoError
  | .select => Wake
  | .drained | .sourceStopped => Bool
  | _ => Unit

/-- A program over these steps, which may end with an error. -/
abbrev Program (α : Type) : Type := ExceptT GoError (Dialogue Step Step.Outcome) α

/-! ## The program -/

namespace Program

/-- One step. -/
def call (s : Step) : Program s.Outcome := query s

variable (hasOps : Bool)

/-- Closes what was listened on before anything was served. -/
def closeListeners : Program Unit := do
  call .closeAPI
  if hasOps then call .closeOps

/-- Serves the operations endpoint, if there is one. -/
def startOps : Program Unit :=
  if hasOps then call .serveOps else pure ()

/-- Shuts the operations endpoint down, by force if it does not go. -/
def stopOps : Dialogue Step Step.Outcome Unit := do
  if hasOps then
    match ← Dialogue.ask Step.shutdownOps with
    | none => pure ()
    | some _ => Dialogue.ask Step.closeOpsServer

/-- What `Serve` fails with for what woke it up. -/
def failure : Wake → Option GoError
  | .cancelled => none
  | .sourceDone (some err) => some (.wrapBoth (.wrap "" errSource ": stream ended") err)
  | .sourceDone none => some (.wrap "" errSource ": stream ended: %!w(<nil>)")
  | .serveDone err => some (.wrap "daemon: serve: " err "")

/-- The shutdown at the end of `Serve`. -/
def shutDown : Program Unit := do
  call (.setServing false)
  call .stopHub
  call .gracefulStop
  if !(← call .drained) then
    call .stopServer
    call .awaitDrained
  call .stopSource
  let _ ← call .sourceStopped

/-- `Serve` from where the source is started. -/
def serveSource : Program Unit := do
  match ← call .startSource with
  | some err =>
    call .closeAPI
    throw (.wrapBoth (.wrap "" errSource ": start") err)
  | none =>
    call .serveAPI
    call (.setServing true)
    let wake ← call .select
    shutDown
    match failure wake with
    | none => pure ()
    | some err => throw err

variable (parseLSN : String → Option Nat) (lsnString : Nat → String) (size : Wire.WireRow → Nat)
  (cfg : Config)

/-- The components that are built from the configuration alone; the first that refuses it. -/
def components : Except GoError Unit := do
  let _ ← newReader cfg.readerConfig true
  let _ ← Hub.new parseLSN cfg.hubConfig
  let _ ← Wire.Server.new lsnString size cfg.sourceID 0 true

/-- `Serve` from where the telemetry is set up. -/
def serveWith : Program Unit := do
  match components parseLSN lsnString size cfg with
  | .error err =>
    closeListeners hasOps
    throw (invalidConfig (": " ++ err.text))
  | .ok () =>
    match ← call .registerServingGauge with
    | some err =>
      closeListeners hasOps
      throw (.wrap "daemon: telemetry: " err "")
    | none =>
      startOps hasOps
      deferring
        (deferring serveSource fun result => do
          Dialogue.ask Step.stopSource
          return result)
        fun result => do
          stopOps hasOps
          return result

/-- `Serve`, with the listeners open. -/
def serve : Program Unit := do
  match ← call .setupTelemetry with
  | some err =>
    closeListeners hasOps
    throw (if err.isErr errInvalidEnvironment then invalidConfig (": " ++ err.text)
      else .wrap "daemon: telemetry: " err "")
  | none =>
    deferring (serveWith hasOps parseLSN lsnString size cfg) fun result => do
      -- a flush that fails is only logged
      let _ ← Dialogue.ask Step.shutdownTelemetry
      return result

/-- `Run`: opens the listeners and serves. -/
def run : Program Unit := do
  match ← call .listenAPI with
  | some err => throw (.wrap "daemon: listen: " err "")
  | none =>
    if cfg.ops.listenAddress = "" then serve false parseLSN lsnString size cfg
    else
      match ← call .listenOps with
      | some err =>
        call .closeAPI
        throw (.wrap "daemon: listen ops: " err "")
      | none => serve true parseLSN lsnString size cfg

end Program

/-- The exit codes of the command. -/
inductive ExitCode
  | ok
  | internal
  | config
  | source
  deriving DecidableEq

/-- The switch of the command over what `Run` returns. -/
def exitCode : Except GoError Unit → ExitCode
  | .ok () => .ok
  | .error err =>
    if err.isErr errInvalidConfig then .config
    else if err.isErr errSource then .source
    else .internal

/-- `run` of the command, from where the configuration is loaded. -/
def runCommand (parseLSN : String → Option Nat) (lsnString : Nat → String)
    (size : Wire.WireRow → Nat)
    (loaded : Except GoError Config) : Dialogue Step Step.Outcome ExitCode :=
  match loaded with
  | .error _ => return .config
  | .ok cfg => return exitCode (← ExceptT.run (Program.run parseLSN lsnString size cfg))

/-! ## What it is made of -/

/-- What failed first. -/
inductive Cause
  | listen
  | environment
  | telemetry
  | source
  | api
  deriving DecidableEq

/-- The source: not started, started, and with its stream ended. -/
inductive SourceStage
  | idle
  | running
  | ended (err : Option GoError)

/-- What the process holds, and what has gone wrong so far. -/
structure Process where
  /-- the context of `Run` is done -/
  cancelled : Bool := false
  apiOpen : Bool := false
  opsOpen : Bool := false
  telemetry : Bool := false
  opsUp : Bool := false
  source : SourceStage := .idle
  /-- the gRPC server runs -/
  apiUp : Bool := false
  /-- gRPC health and `/readyz` say so -/
  serving : Bool := false
  hubStopped : Bool := false
  sourceCancelled : Bool := false
  cause : Option Cause := none

namespace Process

/-- Time passes: the context may be cancelled, and a started source may end. -/
inductive Drifts (p : Process) : Process → Prop
  | mk {cancelled : Bool} {source : SourceStage}
      (hcancelled : p.cancelled = true → cancelled = true)
      (hidle : source = .idle ↔ p.source = .idle) :
      Drifts p { p with cancelled := cancelled, source := source }

/-- The order of the calls. -/
def Accepts (p : Process) : Step → Prop
  | .closeAPI => p.serving = false ∧ p.apiUp = false
  | .closeOps => p.opsUp = false
  | .registerServingGauge => p.telemetry = true
  | .serveOps => p.opsOpen = true ∧ p.telemetry = true
  | .startSource => p.source = .idle ∧ p.telemetry = true ∧ (p.opsOpen = true → p.opsUp = true)
  | .serveAPI => p.apiOpen = true ∧ p.source ≠ .idle
  | .setServing true => p.apiUp = true ∧ p.source ≠ .idle ∧ p.hubStopped = false ∧
      p.sourceCancelled = false
  | .select => p.serving = true
  | .stopHub => p.serving = false
  | .gracefulStop => p.hubStopped = true ∧ p.apiUp = true
  | .stopSource => p.serving = false ∧ p.apiUp = false
  | .shutdownOps => p.apiUp = false ∧ (p.source ≠ .idle → p.sourceCancelled = true)
  | .shutdownTelemetry => p.apiUp = false ∧ p.opsUp = false
  | _ => True

/-- An error of another package. -/
def Foreign (err : GoError) : Prop :=
  err.isErr errInvalidConfig = false ∧ err.isErr errSource = false

/-- How a step may be answered, and what the process is then. -/
def Replies (p : Process) : (s : Step) → s.Outcome → Process → Prop
  | .listenAPI, none, p' => p' = { p with apiOpen := true }
  | .listenAPI, some err, p' => Foreign err ∧ p' = { p with cause := some .listen }
  | .listenOps, none, p' => p' = { p with opsOpen := true }
  | .listenOps, some err, p' => Foreign err ∧ p' = { p with cause := some .listen }
  | .closeAPI, _, p' => p' = { p with apiOpen := false }
  | .closeOps, _, p' => p' = { p with opsOpen := false }
  | .setupTelemetry, none, p' => p' = { p with telemetry := true }
  | .setupTelemetry, some err, p' => Foreign err ∧ p' =
      { p with
        cause := some (if err.isErr errInvalidEnvironment then .environment else .telemetry) }
  | .shutdownTelemetry, _, p' => p' = { p with telemetry := false }
  | .registerServingGauge, none, p' => p' = p
  | .registerServingGauge, some err, p' => Foreign err ∧ p' = { p with cause := some .telemetry }
  | .serveOps, _, p' => p' = { p with opsUp := true }
  -- the listener is closed first; with an error, requests are still being answered
  | .shutdownOps, none, p' => p' = { p with opsOpen := false, opsUp := false }
  | .shutdownOps, some _, p' => p' = { p with opsOpen := false }
  | .closeOpsServer, _, p' => p' = { p with opsUp := false }
  | .startSource, none, p' => p' = { p with source := .running }
  | .startSource, some err, p' => Foreign err ∧ p' = { p with cause := some .source }
  | .serveAPI, _, p' => p' = { p with apiUp := true }
  | .setServing value, _, p' => p' = { p with serving := value }
  | .select, .cancelled, p' => p.cancelled = true ∧ p' = p
  | .select, .sourceDone err, p' => p.source = .ended err ∧ (∀ e, err = some e → Foreign e) ∧
      p' = { p with cause := some .source }
  | .select, .serveDone err, p' => Foreign err ∧ p' = { p with cause := some .api }
  | .stopHub, _, p' => p' = { p with hubStopped := true }
  | .gracefulStop, _, p' => p' = { p with apiOpen := false }
  | .drained, true, p' => p' = { p with apiUp := false }
  | .drained, false, p' => p' = p
  | .stopServer, _, p' => p' = p
  | .awaitDrained, _, p' => p' = { p with apiUp := false }
  | .stopSource, _, p' => p' = { p with sourceCancelled := true }
  | .sourceStopped, inTime, p' => (inTime = true → ∃ err, p.source = .ended err) ∧ p' = p

end Process

/-- What a process calls on. -/
def machinery : Environment Step Step.Outcome Process where
  Drifts := Process.Drifts
  Accepts := Process.Accepts
  Replies := Process.Replies

namespace Process

theorem Drifts.refl (p : Process) : p.Drifts p := .mk (fun h => h) Iff.rfl

theorem Drifts.trans {p₁ p₂ p₃ : Process} (h : p₁.Drifts p₂) (h' : p₂.Drifts p₃) :
    p₁.Drifts p₃ := by
  cases h with
  | mk hcancelled hidle =>
    cases h' with
    | mk hcancelled' hidle' => exact .mk (fun h => hcancelled' (hcancelled h)) (hidle'.trans hidle)

end Process

section Rules

variable {q : Process} {F : GoError → Process → Prop}

theorem meets_step {s : Step} {Q : s.Outcome → Process → Prop}
    (h : ∀ now, q.Drifts now → now.Accepts s ∧ ∀ r p', now.Replies s r p' → Q r p') :
    Meets machinery q.Drifts (Program.call s) Q F :=
  Meets.query fun _ now hp hdrift => h now (hp.trans hdrift)

/-- An update that leaves alone what time changes. -/
def Process.Steady (q : Process) (f : Process → Process) : Prop :=
  (∀ c stage, f { q with cancelled := c, source := stage } =
    { f q with cancelled := c, source := stage }) ∧
  (f q).cancelled = q.cancelled ∧ (f q).source = q.source

theorem Process.Steady.drifts {f : Process → Process} (hf : q.Steady f) {now : Process}
    (h : q.Drifts now) : (f q).Drifts (f now) := by
  obtain ⟨hf, hcancelled, hsource⟩ := hf
  cases h with
  | @mk c stage hc hs =>
    rw [hf c stage]
    exact .mk (fun h => hc (hcancelled ▸ h)) (hs.trans (by rw [hsource]))

/-- A call that updates the process, whatever it returns. -/
theorem meets_update {s : Step} (f : Process → Process) (hf : q.Steady f)
    (haccepts : ∀ now, q.Drifts now → now.Accepts s)
    (hreplies : ∀ now r p', now.Replies s r p' → p' = f now) :
    Meets machinery q.Drifts (Program.call s) (fun _ => (f q).Drifts) F := by
  refine meets_step fun now hnow => ⟨haccepts now hnow, fun r p' hr => ?_⟩
  rw [hreplies now r p' hr]
  exact hf.drifts hnow

/-- A call failed for a reason, which is noted. -/
def Process.Blamed (q : Process) (cause : Cause) (err : GoError) (p : Process) : Prop :=
  Process.Foreign err ∧ ({ q with cause := some cause } : Process).Drifts p

theorem Process.Drifts.blamed {now : Process} (h : q.Drifts now) {err : GoError}
    (hforeign : Process.Foreign err) (cause : Cause) :
    q.Blamed cause err { now with cause := some cause } := by
  have hf : q.Steady fun p => { p with cause := some cause } := ⟨fun _ _ => rfl, rfl, rfl⟩
  exact ⟨hforeign, hf.drifts h⟩

/-- What a call leaves that updates the process, or else fails. -/
theorem Process.Drifts.answered {now : Process} (h : q.Drifts now) (f : Process → Process)
    (hf : q.Steady f) (cause : GoError → Cause) (answer : Option GoError) (p' : Process)
    (hr : answer.elim (p' = f now) fun err =>
      Process.Foreign err ∧ p' = { now with cause := some (cause err) }) :
    answer.elim ((f q).Drifts p') fun err => q.Blamed (cause err) err p' := by
  cases answer with
  | none =>
    cases hr
    exact hf.drifts h
  | some err =>
    obtain ⟨hforeign, rfl⟩ := hr
    exact h.blamed hforeign (cause err)

end Rules

/-! ## Errors -/

section Errors

variable {err err' : GoError} {before after text : String}

theorem isErr_wrap : (GoError.wrap before err after).isErr (.new text) = err.isErr (.new text) := by
  rw [GoError.isErr]
  rfl

theorem isErr_wrapBoth : (GoError.wrapBoth err err').isErr (.new text) =
    (err.isErr (.new text) || err'.isErr (.new text)) := by
  rw [GoError.isErr]
  rfl

theorem Process.Foreign.wrap (h : Process.Foreign err) :
    Process.Foreign (.wrap before err after) :=
  ⟨isErr_wrap.trans h.1, isErr_wrap.trans h.2⟩

theorem invalidConfig_isErr : (invalidConfig after).isErr errInvalidConfig = true :=
  isErr_wrap.trans (by decide)

end Errors

/-! ## Taking it down -/

/-- Nothing is served any more; of the ops endpoint and the telemetry, what is still up. -/
structure Process.Down (opsOpen opsUp telemetry : Bool) (p : Process) : Prop where
  apiOpen : p.apiOpen = false
  apiUp : p.apiUp = false
  serving : p.serving = false
  opsOpen : p.opsOpen = opsOpen
  opsUp : p.opsUp = opsUp
  telemetry : p.telemetry = telemetry
  hub : p.source ≠ .idle → p.hubStopped = true
  source : p.source ≠ .idle → p.sourceCancelled = true

/-- The error says what failed, or that the configuration is `refused`. -/
def Says (refused : Prop) (err : GoError) : Option Cause → Prop
  | none => refused ∧ err.isErr errInvalidConfig = true
  | some .environment => err.isErr errInvalidConfig = true
  | some .source => err.isErr errInvalidConfig = false ∧ err.isErr errSource = true
  | some _ => Process.Foreign err

/-- The result says why the process ends. -/
def Process.Tells (refused : Prop) (p : Process) : Except GoError Unit → Prop
  | .ok () => ¬refused ∧ p.cancelled = true ∧ p.cause = none
  | .error err => Says refused err p.cause

/-- The process is down and the result tells what went wrong. -/
def Process.Ends (refused : Prop) (opsOpen opsUp telemetry : Bool) (result : Except GoError Unit)
    (p : Process) : Prop :=
  p.Down opsOpen opsUp telemetry ∧ p.Tells refused result

theorem Process.Ends.drifts {refused opsOpen opsUp telemetry} {result : Except GoError Unit}
    {p p' : Process} (h : p.Ends refused opsOpen opsUp telemetry result) (hdrift : p.Drifts p') :
    p'.Ends refused opsOpen opsUp telemetry result := by
  obtain ⟨hdown, htells⟩ := h
  cases hdrift with
  | mk hcancelled hidle =>
    refine ⟨{ hdown with
      hub := fun h => hdown.hub (mt hidle.2 h)
      source := fun h => hdown.source (mt hidle.2 h) }, ?_⟩
    cases result with
    | error err => exact htells
    | ok _ => exact ⟨htells.1, hcancelled htells.2.1, htells.2.2⟩

section Serve

variable {refused : Prop} {ops : Bool}

/-- The components run and the source is about to be started. -/
def Process.ready (ops : Bool) : Process :=
  { apiOpen := true, opsOpen := ops, telemetry := true, opsUp := ops }

/-- The API is served. -/
def Process.up (ops : Bool) : Process :=
  { Process.ready ops with source := .running, apiUp := true, serving := true }

/-- What woke the process is noted. -/
def Process.woken (ops : Bool) (wake : Wake) : Process :=
  match wake with
  | .cancelled => { Process.up ops with cancelled := true }
  | .sourceDone _ => { Process.up ops with cause := some .source }
  | .serveDone _ => { Process.up ops with cause := some .api }

theorem says_source_ended {err : Option GoError} (hforeign : ∀ e, err = some e → Process.Foreign e)
    {e : GoError} (h : Program.failure (.sourceDone err) = some e) :
    Says refused e (some .source) := by
  cases err with
  | none =>
    cases h
    exact ⟨isErr_wrap.trans (by decide), isErr_wrap.trans (by decide)⟩
  | some err =>
    cases h
    have hmark : (GoError.wrap "" errSource ": stream ended").isErr errInvalidConfig = false :=
      isErr_wrap.trans (by decide)
    exact ⟨isErr_wrapBoth.trans (Bool.or_eq_false_iff.2 ⟨hmark, (hforeign err rfl).1⟩),
      isErr_wrapBoth.trans (Bool.or_eq_true_iff.2 (.inl (isErr_wrap.trans (by decide))))⟩

theorem select_meets (refused : Prop) {F : GoError → Process → Prop} :
    Meets machinery (Process.up ops).Drifts (Program.call .select)
      (fun wake p => ((∀ err, Program.failure wake = some err →
          Says refused err (Process.woken ops wake).cause) ∧
        (Program.failure wake = none → (Process.woken ops wake).cancelled = true ∧
          (Process.woken ops wake).cause = none)) ∧
        (Process.woken ops wake).Drifts p) F := by
  refine meets_step fun now hnow => ?_
  cases hnow with
  | mk hcancelled hidle =>
    refine ⟨rfl, ?_⟩
    rintro (_ | err | err) p' hr
    · obtain ⟨hdone, rfl⟩ := hr
      exact ⟨⟨fun err h => (by cases h), fun _ => ⟨rfl, rfl⟩⟩, .mk (fun _ => hdone) hidle⟩
    · obtain ⟨-, hforeign, rfl⟩ := hr
      refine ⟨⟨fun e h => says_source_ended hforeign h, fun h => ?_⟩, .mk hcancelled hidle⟩
      cases err <;> cases h
    · obtain ⟨hforeign, rfl⟩ := hr
      refine ⟨⟨fun e h => ?_, fun h => (by cases h)⟩, .mk hcancelled hidle⟩
      cases h
      exact hforeign.wrap

/-- What the shutdown leaves. -/
def Process.shutDown (w : Process) : Process :=
  { w with
    serving := false, hubStopped := true, apiOpen := false, apiUp := false,
    sourceCancelled := true }

/-- Health first, then the watches, then the server, and the source only once it has drained. -/
theorem shutDown_meets {w : Process} (hup : w.apiUp = true) {F : GoError → Process → Prop} :
    Meets machinery w.Drifts Program.shutDown (fun _ => w.shutDown.Drifts) F := by
  unfold Program.shutDown
  refine Meets.bind (meets_update (fun p => { p with serving := false }) ⟨fun _ _ => rfl, rfl, rfl⟩
    (fun _ _ => trivial) fun _ _ _ h => h) fun _ => ?_
  refine Meets.bind (meets_update (fun p => { p with hubStopped := true })
    ⟨fun _ _ => rfl, rfl, rfl⟩ (fun _ h => by cases h; rfl) fun _ _ _ h => h) fun _ => ?_
  refine Meets.bind (meets_update (fun p => { p with apiOpen := false }) ⟨fun _ _ => rfl, rfl, rfl⟩
    (fun _ h => by cases h; exact ⟨rfl, hup⟩) fun _ _ _ h => h) fun _ => ?_
  let draining : Process := { w with serving := false, hubStopped := true, apiOpen := false }
  -- in time or not, the server is down before the source is told to stop
  have hstop : Meets machinery ({ draining with apiUp := false } : Process).Drifts
      (do Program.call .stopSource; let _ ← Program.call .sourceStopped)
        (fun _ => w.shutDown.Drifts)
      F := by
    refine Meets.bind (meets_update (fun p => { p with sourceCancelled := true })
      ⟨fun _ _ => rfl, rfl,
      rfl⟩ (fun _ h => by cases h; exact ⟨rfl, rfl⟩) fun _ _ _ h => h) fun _ => ?_
    refine Meets.bind (Q := fun _ => w.shutDown.Drifts) (meets_step fun now hnow => ?_) fun _ =>
      Meets.pure fun _ h => h
    refine ⟨trivial, ?_⟩
    rintro _ _ ⟨-, rfl⟩
    exact hnow
  refine Meets.bind
    (Q := fun inTime => (if inTime then { draining with apiUp := false } else draining).Drifts)
    (meets_step fun now hnow => ?_) fun inTime => ?_
  · cases hnow with
    | mk hcancelled hidle =>
      refine ⟨trivial, ?_⟩
      rintro (_ | _) _ rfl
      · exact .mk hcancelled hidle
      · exact .mk hcancelled hidle
  · cases inTime with
    | true => exact hstop
    | false =>
      refine Meets.bind (meets_update (fun p => p) ⟨fun _ _ => rfl, rfl, rfl⟩ (fun _ _ => trivial)
        fun _ _ _ h => h) fun _ => ?_
      exact Meets.bind (meets_update (fun p => { p with apiUp := false }) ⟨fun _ _ => rfl, rfl, rfl⟩
        (fun _ _ => trivial) fun _ _ _ h => h) fun _ => hstop

theorem woken_apiUp (wake : Wake) : (Process.woken ops wake).apiUp = true := by
  cases wake <;> rfl

/-- Once shut down after having served, only the ops endpoint and the telemetry are left. -/
theorem woken_down (wake : Wake) {p : Process} (h : (Process.woken ops wake).shutDown.Drifts p) :
    p.Down ops ops true ∧ p.cause = (Process.woken ops wake).cause ∧
      ((Process.woken ops wake).cancelled = true → p.cancelled = true) := by
  cases h with
  | mk hcancelled hidle =>
    refine ⟨?_, rfl, hcancelled⟩
    cases wake <;> exact ⟨rfl, rfl, rfl, rfl, rfl, rfl, fun _ => rfl, fun _ => rfl⟩

theorem startSource_meets {F : GoError → Process → Prop} :
    Meets machinery (Process.ready ops).Drifts (Program.call .startSource)
      (fun answer p => answer.elim
        (({ Process.ready ops with source := .running } : Process).Drifts p)
        fun err => (Process.ready ops).Blamed .source err p) F := by
  refine meets_step fun now hnow => ⟨?_, ?_⟩
  · cases hnow with
    | mk hcancelled hidle => exact ⟨hidle.2 rfl, rfl, fun h => h⟩
  · rintro (_ | err) p' hr
    · cases hr
      cases hnow with
      | mk hcancelled hidle => exact .mk hcancelled Iff.rfl
    · obtain ⟨hforeign, rfl⟩ := hr
      exact hnow.blamed hforeign .source

theorem says_source_start {err : GoError} (hforeign : Process.Foreign err) :
    Says refused (.wrapBoth (.wrap "" errSource ": start") err) (some .source) := by
  have hmark : (GoError.wrap "" errSource ": start").isErr errInvalidConfig = false :=
    isErr_wrap.trans (by decide)
  exact ⟨isErr_wrapBoth.trans (Bool.or_eq_false_iff.2 ⟨hmark, hforeign.1⟩),
    isErr_wrapBoth.trans (Bool.or_eq_true_iff.2 (.inl (isErr_wrap.trans (by decide))))⟩

theorem serveSource_meets (ops : Bool) (hbuilt : ¬refused) :
    Meets machinery (Process.ready ops).Drifts Program.serveSource
      (fun a => Process.Ends refused ops ops true (.ok a))
      (fun e => Process.Ends refused ops ops true (.error e)) := by
  unfold Program.serveSource
  refine Meets.bind startSource_meets fun answer => ?_
  cases answer with
  | some err =>
    refine Meets.of_fact fun hforeign => ?_
    have hword : Says refused _ (some .source) := says_source_start hforeign
    refine Meets.bind (meets_update (fun p => { p with apiOpen := false })
      ⟨fun _ _ => rfl, rfl, rfl⟩ (fun _ h => by cases h; exact ⟨rfl, rfl⟩) fun _ _ _ h => h)
      fun _ => Meets.throw fun p hp => ?_
    cases hp with
    | mk hcancelled hidle =>
      refine ⟨⟨rfl, rfl, rfl, rfl, rfl, rfl, ?_, ?_⟩, hword⟩
      · exact fun h => absurd (hidle.2 rfl) h
      · exact fun h => absurd (hidle.2 rfl) h
  | none =>
    refine Meets.bind (meets_update (fun p => { p with apiUp := true }) ⟨fun _ _ => rfl, rfl, rfl⟩
      (fun _ h => ?_) fun _ _ _ h => h) fun _ => ?_
    · cases h with
      | mk hcancelled hidle => exact ⟨rfl, fun h => by cases hidle.1 h⟩
    refine Meets.bind (meets_update (fun p => { p with serving := true })
      ⟨fun _ _ => rfl, rfl, rfl⟩ (fun _ h => ?_) fun _ _ _ h => h) fun _ => ?_
    · cases h with
      | mk hcancelled hidle => exact ⟨rfl, (fun h => by cases hidle.1 h), rfl, rfl⟩
    refine Meets.bind (select_meets refused) fun wake => Meets.of_fact fun hwake => ?_
    refine Meets.bind (shutDown_meets (woken_apiUp wake)) fun _ => ?_
    cases hfailure : Program.failure wake with
    | none =>
      refine Meets.pure fun p hp => ?_
      obtain ⟨hdown, hcause, hcancelled⟩ := woken_down wake hp
      obtain ⟨hcancel, hnone⟩ := hwake.2 hfailure
      exact ⟨hdown, hbuilt, hcancelled hcancel, hcause.trans hnone⟩
    | some err =>
      refine Meets.throw fun p hp => ?_
      obtain ⟨hdown, hcause, -⟩ := woken_down wake hp
      refine ⟨hdown, ?_⟩
      show Says refused err p.cause
      rw [hcause]
      exact hwake.1 err hfailure

/-! ### What is deferred -/

theorem ensures_stopSource {result : Except GoError Unit} {p : Process}
    (h : p.Ends refused ops ops true result) :
    Dialogue.Ensures machinery (fun result p => Process.Ends refused ops ops true result p)
      (do Dialogue.ask Step.stopSource; return result) p := by
  intro now hdrift
  have hnow := h.drifts hdrift
  refine ⟨⟨hnow.1.serving, hnow.1.apiUp⟩, ?_⟩
  rintro _ _ rfl
  exact ⟨{ hnow.1 with source := fun _ => rfl }, by cases result <;> exact hnow.2⟩

theorem ensures_stopOps {result : Except GoError Unit} {p : Process}
    (h : p.Ends refused ops ops true result) :
    Dialogue.Ensures machinery (fun result p => Process.Ends refused false false true result p)
      (do Program.stopOps ops; return result) p := by
  cases ops with
  | false => exact h
  | true =>
    intro now hdrift
    have hnow := h.drifts hdrift
    refine ⟨⟨hnow.1.apiUp, hnow.1.source⟩, ?_⟩
    rintro (_ | err) _ rfl
    · exact ⟨{ hnow.1 with opsOpen := rfl, opsUp := rfl }, by cases result <;> exact hnow.2⟩
    · -- the listener is closed, and what is still being answered is cut off
      have hleft : Process.Ends refused false true true result { now with opsOpen := false } :=
        ⟨{ hnow.1 with opsOpen := rfl }, by cases result <;> exact hnow.2⟩
      intro now' hdrift'
      have hnow' := hleft.drifts hdrift'
      refine ⟨trivial, ?_⟩
      rintro _ _ rfl
      exact ⟨{ hnow'.1 with opsUp := rfl }, by cases result <;> exact hnow'.2⟩

theorem ensures_shutdownTelemetry {result : Except GoError Unit} {p : Process}
    (h : p.Ends refused false false true result) :
    Dialogue.Ensures machinery (fun result p => Process.Ends refused false false false result p)
      (do let _ ← Dialogue.ask Step.shutdownTelemetry; return result) p := by
  intro now hdrift
  have hnow := h.drifts hdrift
  refine ⟨⟨hnow.1.apiUp, hnow.1.opsUp⟩, ?_⟩
  rintro _ _ rfl
  exact ⟨{ hnow.1 with telemetry := rfl }, by cases result <;> exact hnow.2⟩

/-! ### The whole -/

theorem closeListeners_meets {q : Process} (hserving : q.serving = false) (hup : q.apiUp = false)
    (hops : q.opsUp = false) (hopen : q.opsOpen = ops) {F : GoError → Process → Prop} :
    Meets machinery q.Drifts (Program.closeListeners ops)
      (fun _ => ({ q with apiOpen := false, opsOpen := false } : Process).Drifts) F := by
  unfold Program.closeListeners
  refine Meets.bind (meets_update (fun p => { p with apiOpen := false }) ⟨fun _ _ => rfl, rfl, rfl⟩
    (fun _ h => by cases h; exact ⟨hserving, hup⟩) fun _ _ _ h => h) fun _ => ?_
  cases ops with
  | false =>
    have hsame : ({ q with apiOpen := false, opsOpen := false } : Process) =
        { q with apiOpen := false } := by simp only [hopen]
    rw [hsame]
    exact Meets.pure fun _ hp => hp
  | true =>
    exact meets_update (fun p => { p with opsOpen := false }) ⟨fun _ _ => rfl, rfl, rfl⟩
      (fun _ h => by cases h; exact hops) fun _ _ _ h => h

/-- The listeners of `Serve`. -/
def Process.listening (ops : Bool) : Process := { apiOpen := true, opsOpen := ops }

/-- Closing the listeners is all there is to take down before the source is started. -/
theorem Process.Drifts.down {telemetry : Bool} {cause : Option Cause} {p : Process}
    (h : ({ telemetry := telemetry, cause := cause } : Process).Drifts p) :
    p.Down false false telemetry ∧ p.cause = cause := by
  cases h with
  | mk hcancelled hidle =>
    exact ⟨⟨rfl, rfl, rfl, rfl, rfl, rfl, fun h => absurd (hidle.2 rfl) h,
      fun h => absurd (hidle.2 rfl) h⟩, rfl⟩

variable {parseLSN : String → Option Nat} {lsnString : Nat → String} {size : Wire.WireRow → Nat}
  {cfg : Config}

/-- A component refuses the configuration. -/
def Config.Refused (parseLSN : String → Option Nat) (lsnString : Nat → String)
    (size : Wire.WireRow → Nat) (cfg : Config) : Prop :=
  ∃ err, Program.components parseLSN lsnString size cfg = .error err

theorem says_config {refused : Prop} (h : refused) {after : String} :
    Says refused (invalidConfig after) none :=
  ⟨h, invalidConfig_isErr⟩

/-- An early return, with the listeners closed. -/
theorem closed_meets {q : Process} {telemetry : Bool} {cause : Option Cause} {err : GoError}
    (hq : q = { Process.listening ops with telemetry := telemetry, cause := cause })
    (hword : Says refused err cause) {Q : Unit → Process → Prop} :
    Meets machinery q.Drifts (do Program.closeListeners ops; throw err) Q
      (fun e => Process.Ends refused false false telemetry (.error e)) := by
  subst hq
  refine Meets.bind (closeListeners_meets rfl rfl rfl rfl) fun _ => Meets.throw fun p hp => ?_
  obtain ⟨hdown, hcause⟩ := hp.down
  refine ⟨hdown, ?_⟩
  show Says refused err p.cause
  rw [hcause]
  exact hword

theorem startOps_meets {F : GoError → Process → Prop} :
    Meets machinery ({ Process.listening ops with telemetry := true } : Process).Drifts
      (Program.startOps ops) (fun _ => (Process.ready ops).Drifts) F := by
  cases ops with
  | false => exact Meets.pure fun _ hp => hp
  | true =>
    exact meets_update (fun p => { p with opsUp := true }) ⟨fun _ _ => rfl, rfl, rfl⟩
      (fun _ h => by cases h; exact ⟨rfl, rfl⟩) fun _ _ _ h => h

theorem serveWith_meets :
    Meets machinery ({ Process.listening ops with telemetry := true } : Process).Drifts
      (Program.serveWith ops parseLSN lsnString size cfg)
      (fun a => Process.Ends (cfg.Refused parseLSN lsnString size) false false true (.ok a))
      (fun e => Process.Ends (cfg.Refused parseLSN lsnString size) false false true
        (.error e)) := by
  unfold Program.serveWith
  cases hbuilt : Program.components parseLSN lsnString size cfg with
  | error err =>
    have hrefused : cfg.Refused parseLSN lsnString size := ⟨err, hbuilt⟩
    exact closed_meets rfl (says_config hrefused)
  | ok _ =>
    have hnot : ¬cfg.Refused parseLSN lsnString size := by
      rintro ⟨err, herr⟩
      rw [hbuilt] at herr
      cases herr
    refine Meets.bind (Q := fun answer p => answer.elim
      (({ Process.listening ops with telemetry := true } : Process).Drifts p)
      fun err =>
        ({ Process.listening ops with telemetry := true } : Process).Blamed .telemetry err p)
      (meets_step fun now hnow => ?_) fun answer => ?_
    · refine ⟨by cases hnow; rfl, fun answer p' hr => ?_⟩
      exact hnow.answered (fun p => p) ⟨fun _ _ => rfl, rfl, rfl⟩ (fun _ => .telemetry) answer p'
        (by cases answer <;> exact hr)
    cases answer with
    | some err =>
      refine Meets.of_fact fun hforeign => closed_meets rfl ?_
      exact hforeign.wrap
    | none =>
      refine Meets.bind startOps_meets fun _ => ?_
      have hsource := Meets.deferred (serveSource_meets ops hnot) fun _ _ h => ensures_stopSource h
      exact Meets.deferred hsource fun _ _ h => ensures_stopOps h

theorem serve_meets :
    Meets machinery (Process.listening ops).Drifts (Program.serve ops parseLSN lsnString size cfg)
      (fun a => Process.Ends (cfg.Refused parseLSN lsnString size) false false false (.ok a))
      (fun e => Process.Ends (cfg.Refused parseLSN lsnString size) false false false
        (.error e)) := by
  unfold Program.serve
  refine Meets.bind (Q := fun answer p => answer.elim
    (({ Process.listening ops with telemetry := true } : Process).Drifts p)
    fun err => (Process.listening ops).Blamed
      (if err.isErr errInvalidEnvironment then .environment else .telemetry) err p)
    (meets_step fun now hnow => ⟨trivial, fun answer p' hr => ?_⟩) fun answer => ?_
  · exact hnow.answered (fun p => { p with telemetry := true }) ⟨fun _ _ => rfl, rfl, rfl⟩
      (fun err => if err.isErr errInvalidEnvironment then .environment else .telemetry) answer p'
      (by cases answer <;> exact hr)
  · cases answer with
    | none => exact Meets.deferred serveWith_meets fun _ _ h => ensures_shutdownTelemetry h
    | some err =>
      refine Meets.of_fact fun hforeign => closed_meets rfl ?_
      by_cases hinvalid : err.isErr errInvalidEnvironment = true
      · rw [if_pos hinvalid, if_pos hinvalid]
        exact invalidConfig_isErr
      · rw [if_neg hinvalid, if_neg hinvalid]
        exact hforeign.wrap

theorem run_meets :
    Meets machinery ({} : Process).Drifts (Program.run parseLSN lsnString size cfg)
      (fun a => Process.Ends (cfg.Refused parseLSN lsnString size) false false false (.ok a))
      (fun e => Process.Ends (cfg.Refused parseLSN lsnString size) false false false
        (.error e)) := by
  unfold Program.run
  refine Meets.bind (Q := fun answer p => answer.elim ((Process.listening false).Drifts p)
    fun err => ({} : Process).Blamed .listen err p)
      (meets_step fun now hnow => ⟨trivial, fun answer p' hr => ?_⟩)
    fun answer => ?_
  · exact hnow.answered (fun p => { p with apiOpen := true }) ⟨fun _ _ => rfl, rfl, rfl⟩
      (fun _ => .listen) answer p' (by cases answer <;> exact hr)
  cases answer with
  | some err =>
    refine Meets.of_fact fun hforeign => Meets.throw fun p hp => ?_
    obtain ⟨hdown, hcause⟩ := hp.down
    refine ⟨hdown, ?_⟩
    show Says _ _ p.cause
    rw [hcause]
    exact hforeign.wrap
  | none =>
    by_cases hops : cfg.ops.listenAddress = ""
    · dsimp only
      rw [if_pos hops]
      exact serve_meets
    · dsimp only
      rw [if_neg hops]
      refine Meets.bind (Q := fun answer p => answer.elim ((Process.listening true).Drifts p)
        fun err => (Process.listening false).Blamed .listen err p)
        (meets_step fun now hnow => ⟨trivial, fun answer p' hr => ?_⟩) fun answer => ?_
      · exact hnow.answered (fun p => { p with opsOpen := true }) ⟨fun _ _ => rfl, rfl, rfl⟩
          (fun _ => .listen) answer p' (by cases answer <;> exact hr)
      cases answer with
      | none => exact serve_meets
      | some err =>
        refine Meets.of_fact fun hforeign => ?_
        have hword : Says (cfg.Refused parseLSN lsnString size)
            (.wrap "daemon: listen ops: " err "") (some .listen) := hforeign.wrap
        exact closed_meets rfl hword

end Serve

/-! ## The exit code -/

section Exit

variable {parseLSN : String → Option Nat} {lsnString : Nat → String} {size : Wire.WireRow → Nat}

theorem Config.not_refused_iff {cfg : Config} : ¬cfg.Refused parseLSN lsnString size ↔
    Program.components parseLSN lsnString size cfg = .ok () := by
  unfold Refused
  cases Program.components parseLSN lsnString size cfg with
  | error err => simp
  | ok _ => simp

/-- Of what loads, only a projection without a name is refused. -/
theorem Config.Valid.refused_iff {cfg : Config} (h : cfg.Valid) :
    cfg.Refused parseLSN lsnString size ↔ ∃ np ∈ cfg.projections, np.1 = "" := by
  obtain ⟨reader, hreader⟩ := h.reader
  obtain ⟨srv, hsrv⟩ : ∃ srv, Wire.Server.new lsnString size cfg.sourceID 0 true = .ok srv :=
    server_new_eq_ok.2 h.source
  have hhub : (∃ hub, Hub.new parseLSN cfg.hubConfig = .ok hub) ↔
      ∀ np ∈ cfg.projections, np.1 ≠ "" :=
    h.hub_new (.refl cfg.projectionSpecs) parseLSN
  have hbuilt : Program.components parseLSN lsnString size cfg = .ok () ↔
      ∃ hub, Hub.new parseLSN cfg.hubConfig = .ok hub := by
    constructor
    · intro hok
      obtain ⟨_, -, hok⟩ := bind_eq_ok.1 hok
      obtain ⟨hub, hnew, -⟩ := bind_eq_ok.1 hok
      exact ⟨hub, hnew⟩
    · rintro ⟨hub, hnew⟩
      exact bind_eq_ok.2 ⟨reader, hreader, bind_eq_ok.2 ⟨hub, hnew, bind_eq_ok.2 ⟨srv, hsrv, rfl⟩⟩⟩
  rw [← not_iff_not, not_refused_iff, hbuilt, hhub]
  simp only [not_exists, not_and, ne_eq]

/-- How an exit code and the end of the process belong together; `refused` says that the
configuration does not load or is refused. -/
structure ExitCode.Tells (refused : Prop) (code : ExitCode) (p : Process) : Prop where
  ok : code = .ok → p.cancelled = true ∧ p.cause = none
  source : code = .source ↔ p.cause = some .source
  internal : code = .internal ↔
    p.cause = some .listen ∨ p.cause = some .telemetry ∨ p.cause = some .api
  config : code = .config ↔ p.cause = some .environment ∨ p.cause = none ∧ refused

theorem Says.exitCode {refused : Prop} {err : GoError} {p : Process}
    (h : Says refused err p.cause) :
    (exitCode (.error err)).Tells refused p := by
  simp only [Daemon.exitCode]
  cases hcause : p.cause with
  | none =>
    rw [hcause] at h
    rw [if_pos h.2]
    exact ⟨by simp, by simp [hcause], by simp [hcause], by simp [hcause, h.1]⟩
  | some cause =>
    rw [hcause] at h
    cases cause with
    | environment =>
      have hinvalid : err.isErr errInvalidConfig = true := h
      rw [if_pos hinvalid]
      exact ⟨by simp, by simp [hcause], by simp [hcause], by simp [hcause]⟩
    | source =>
      rw [if_neg (by rw [h.1]; exact Bool.false_ne_true), if_pos h.2]
      exact ⟨by simp, by simp [hcause], by simp [hcause], by simp [hcause]⟩
    | listen | telemetry | api =>
      rw [if_neg (by rw [h.1]; exact Bool.false_ne_true),
        if_neg (by rw [h.2]; exact Bool.false_ne_true)]
      exact ⟨by simp, by simp [hcause], by simp [hcause], by simp [hcause]⟩

theorem Process.exists_reply (p : Process) (s : Step) : ∃ r p', p.Replies s r p' := by
  have hforeign : Process.Foreign (.new "") := by
    constructor
    · decide
    · decide
  cases s with
  | listenAPI | listenOps | setupTelemetry | registerServingGauge | shutdownOps | startSource =>
    exact ⟨none, _, rfl⟩
  | shutdownTelemetry => exact ⟨none, _, rfl⟩
  | drained => exact ⟨true, _, rfl⟩
  | select => exact ⟨.serveDone (.new ""), _, hforeign, rfl⟩
  | sourceStopped => exact ⟨false, _, fun h => (by cases h), rfl⟩
  | closeAPI | closeOps | serveOps | closeOpsServer | serveAPI | setServing | stopHub | gracefulStop
  | stopServer | awaitDrained | stopSource => exact ⟨(), _, rfl⟩

-- whatever the configuration, the command may return
example (parseLSN : String → Option Nat) (lsnString : Nat → String) (size : Wire.WireRow → Nat)
    (loaded : Except GoError Config) : ∃ code p,
      Dialogue.Runs machinery {} (runCommand parseLSN lsnString size loaded) code p :=
  Dialogue.exists_runs Process.Drifts.refl Process.exists_reply _ _

end Exit

end Watchd.Daemon
