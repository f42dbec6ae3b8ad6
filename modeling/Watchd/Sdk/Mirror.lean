import Watchd.Sdk.Told

/-!
# A hub and one client that mirrors a scope

The hub behind its server, and one client that runs `Sync` over a `MemoryStore`.
The client opens streams, each of which is a new Watch call, receives their
messages in order, may lose a stream at any point, and resumes from the cursor
its store holds.  Other clients, and everything the hub does, interleave freely.
-/

namespace Watchd.Sdk

open Watchd.Cdc Watchd.Lib Watchd.Wire

/-- A hub behind its server, and one client. -/
structure Mirror where
  served : Served
  client : Sync MemoryStore RowMap
  /-- the Watch call of the client's last stream, unless the server refused it -/
  watch : Option Watch.WatcherId := none
  /-- how many of the stream's messages the client has received -/
  received : Nat := 0
  /-- the snapshot the client installed last -/
  installed : Option Snapshot := none

/-- The steps of both. -/
inductive Mirror.Label
  /-- a step of the hub and its server -/
  | serve (l : Served.Label)
  | open_ (failure : Option Code)
  /-- the client receives the next message of its stream -/
  | recv
  /-- the stream ends, with a status or without -/
  | lose (status : Option Code)
  | next (cancelled : Bool)
  | wait (cancelled : Bool)

namespace Mirror

variable (X : Scene) (s : Mirror)

/-- The server takes a Watch call with the stored cursor. -/
def connect (cursor : String) : Mirror :=
  match X.srv.request s.served.system.hub.parseLSN X.name X.scope cursor with
  | .error _ => { s with watch := none, received := 0 }
  | .ok req =>
    { s with
      served := { s.served with system := s.served.system.openWatch req }
      watch := some s.served.system.watches.length
      received := 0 }

/-- What the watch `id` needs. -/
def needOf (id : Watch.WatcherId) : Option Watch.Need :=
  s.served.system.watches[id]?.bind fun ws => ws.history.need

/-- One step; the client receives its stream's messages in order. -/
def step : Label → Option Mirror
  | .serve l => (s.served.step X.srv l).map fun served => { s with served := served }
  | .open_ failure =>
    (s.client.step memoryStore (.open_ failure)).map fun client =>
      match client.phase with
      | .streaming cursor _ _ => connect X { s with client := client } cursor
      | _ => { s with client := client }
  | .recv =>
    s.watch.bind fun id =>
      (s.served.streams id)[s.received]?.bind fun msg =>
        (s.client.step memoryStore (.recv (.event (eventOf msg)))).map fun client =>
          { s with
            client := client
            received := s.received + 1
            installed := installedBy s.installed (s.needOf id) msg }
  | .lose none =>
    (s.client.step memoryStore (.recv .eof)).map fun client => { s with client := client }
  | .lose (some code) =>
    (s.client.step memoryStore (.recv (.status code))).map fun client => { s with client := client }
  | .next cancelled =>
    (s.client.step memoryStore (.next cancelled)).map fun client => { s with client := client }
  | .wait cancelled =>
    (s.client.step memoryStore (.wait cancelled)).map fun client => { s with client := client }

end Mirror

/-- The machine of a new hub that serves the scene and a client with an empty store. -/
def mirror (X : Scene) : Machine Mirror Mirror.Label where
  init s := ∃ cfg hub minBackoff maxBackoff, Watch.Hub.new X.parseLSN cfg = .ok hub ∧ Hosts X hub ∧
    s = { served := { system := { hub := hub } }
          client := .start { primaryKey := X.primaryKey } minBackoff maxBackoff }
  step := Mirror.step X

/-! ## Conditions on runs -/

namespace Mirror

variable (X : Scene) (s : Mirror)

/-- The hub follows the history undisturbed, and a snapshot read for the client covers a prefix of
it and has its rows. -/
def undisturbed : Label → Prop
  | .serve (.hub (.watch id (.read (.ok snap)))) =>
    s.watch = some id → ∀ ws ∈ s.served.system.watches[id]?,
      ∃ n ≤ X.history.length, X.Taken snap (Watch.rowsOf ws.sent) n
  | .serve (.hub l) => Watch.calm X.history s.served.system l
  | _ => True

/-- Cursors stand for what the client's rows hold.  The stored cursor from which a stream is resumed
is not before a transaction that the installed snapshot covers; and a hub that has received nothing
does not report the cursor of a snapshot that misses a transaction before it. -/
def aligned : Label → Prop
  | .open_ _ => s.client.snapshot = false → ∀ snap ∈ s.installed,
    ∀ c ∈ (X.srv.decodeCursor X.parseLSN s.client.store.cursor).toOption,
      ∀ t ∈ X.history, snap.covers t = .ok true → t.after c = .ok false
  | .serve (.hub (.watch id _)) => s.watch = some id → ∀ ws ∈ s.served.system.watches[id]?,
    settled X.history s.served.system.hub ws.phase
  | _ => True

instance : (l : Label) → Decidable (s.undisturbed X l)
  | .serve (.hub (.watch _ (.read (.ok _)))) => inferInstanceAs (Decidable (_ → _))
  | .serve (.hub (.accept t)) =>
    inferInstanceAs (Decidable (Watch.calm X.history s.served.system (.accept t)))
  | .serve (.hub (.close _)) | .serve (.hub .stop) | .serve (.hub (.open_ _))
  | .serve (.hub (.watch _ .run)) | .serve (.hub (.watch _ (.fail _)))
  | .serve (.hub (.watch _ (.rows _))) | .serve (.hub (.watch _ (.read (.error _))))
  | .serve (.hub (.watch _ (.choose _))) | .serve (.cut _ _ _ _) | .open_ _ | .recv | .lose _
  | .next _ | .wait _ => .isTrue trivial

instance : (l : Label) → Decidable (s.aligned X l)
  | .open_ _ => inferInstanceAs (Decidable (_ → _))
  | .serve (.hub (.watch _ _)) => inferInstanceAs (Decidable (_ → _))
  | .serve (.hub (.accept _)) | .serve (.hub (.close _)) | .serve (.hub .stop)
  | .serve (.hub (.open_ _)) | .serve (.cut _ _ _ _) | .recv | .lose _ | .next _ | .wait _ =>
    .isTrue trivial

end Mirror

end Watchd.Sdk
