import Minikura.Concurrency.Machine
import Minikura.Registry.Service

/-!
# Concurrent calls at READ COMMITTED

Any number of calls of the service are under way, and their requests interleave. A
transaction runs statement by statement and sees its own writes and what is committed.
A `DELETE` picks its rows in one step and deletes them in a later one, once nobody else
has written them; what others commit in between it does not see. A statement that would
write a row or a unique key that another open transaction has written has to wait, and
so does one that needs an artifact another one deletes. A transaction that cannot go on
is rolled back.

## Main definitions

* `Tx` — an open transaction; `Tx.view` is what it sees, and what its commit leaves.
* `System`, `System.next` — the calls under way and their steps.
* `OneVersion` — no server has two versions of a plugin.
-/

namespace Minikura.Registry
open Concurrency

/-! ## Installations -/

/-- A plugin row with the project of its artifact. -/
structure Installation where
  id : String
  serverId : String
  artifactId : String
  project : PluginProvider × String
deriving Repr, DecidableEq

def Database.installation (db : Database) (p : ServerPlugin) : Option Installation :=
  (db.findArtifact p.artifactId).map fun a => ⟨p.id, p.serverId, p.artifactId, a.project⟩

def Database.installations (db : Database) : List Installation :=
  db.plugins.filterMap db.installation

/-- Each server has at most one row whose artifact belongs to a given project. -/
def OneVersion (db : Database) : Prop :=
  ∀ p ∈ db.plugins, ∀ q ∈ db.plugins, ∀ a b,
    db.findArtifact p.artifactId = some a → db.findArtifact q.artifactId = some b →
      p.serverId = q.serverId → a.project = b.project → p = q

/-! ## Transactions -/

structure Tx where
  /-- The statements still to be executed. -/
  rest : List Statement
  /-- The rows the `DELETE` in progress has picked. -/
  targets : Option (List String) := none
  /-- What was installed when the last `DELETE` picked its rows. -/
  snapshot : List Installation := []
  deleted : List String := []
  /-- The rows written, inserted or not. -/
  installed : List ServerPlugin := []
  deletedArtifacts : List String := []

namespace Tx

def writes (tx : Tx) (id : String) : Bool :=
  tx.deleted.contains id || tx.installed.any (·.id == id)

def view (tx : Tx) (db : Database) : Database :=
  { db with
    plugins := db.plugins.filter (!tx.writes ·.id) ++ tx.installed
    artifacts := db.artifacts.filter (!tx.deletedArtifacts.contains ·.id) }

end Tx

def ServerPlugin.at (serverId artifactId : String) (p : ServerPlugin) : Bool :=
  p.serverId == serverId && p.artifactId == artifactId

/-- Pick the rows of a `DELETE`. -/
def Tx.look (db : Database) (tx : Tx) : Option Tx :=
  match tx.rest, tx.targets with
  | .deletePlugins w :: _, none =>
    some { tx with
      targets := some (((tx.view db).plugins.filter (w.matches (tx.view db))).map (·.id))
      snapshot := (tx.view db).installations }
  | _, _ => none

/-- Whether `INSERT … ON CONFLICT DO UPDATE` of a plugin row has to wait for a transaction. -/
def Tx.blocksInstall (db : Database) (id serverId artifactId : String) (o : Tx) : Bool :=
  o.installed.any (fun q => q.at serverId artifactId || q.id == id) ||
    db.plugins.any (fun p => p.at serverId artifactId && o.writes p.id) ||
    o.deletedArtifacts.contains artifactId

def Tx.install (db : Database) (id serverId artifactId : String) (tx : Tx) : Option Tx :=
  match (tx.view db).plugins.find? (·.at serverId artifactId) with
  | some p =>
    some { tx with
      rest := tx.rest.tail
      installed := tx.installed.filter (·.id ≠ p.id) ++ [{ p with enabled := true }] }
  | none =>
    if db.plugins.any (·.id = id) ∨ tx.installed.any (·.id = id) ∨ serverId ∉ db.servers ∨
        (tx.view db).findArtifact artifactId = none then none
    else some { tx with
      rest := tx.rest.tail
      installed := tx.installed ++ [{ id, serverId, artifactId }] }

def Tx.blocksDeletion (artifactId : String) (o : Tx) : Bool :=
  o.installed.any (·.artifactId == artifactId) || o.deletedArtifacts.contains artifactId

/-- Execute the next statement, or the rest of a `DELETE` that has picked its rows. -/
def Tx.act (db : Database) (others : List Tx) (tx : Tx) : Option Tx :=
  match tx.rest, tx.targets with
  | .deletePlugins _ :: rest, some targets =>
    if others.any fun o => targets.any o.writes then none
    else some { tx with
      rest, targets := none
      deleted := tx.deleted ++ targets
      installed := tx.installed.filter (!targets.contains ·.id) }
  | .upsertPlugin id serverId artifactId :: _, none =>
    if others.any (·.blocksInstall db id serverId artifactId) then none
    else tx.install db id serverId artifactId
  | .deleteArtifact id :: rest, none =>
    if others.any (·.blocksDeletion id) ∨ (tx.view db).findArtifact id = none ∨
        (tx.view db).plugins.any (·.artifactId = id) then none
    else some { tx with rest, deletedArtifacts := tx.deletedArtifacts ++ [id] }
  | _, _ => none

/-! ## Calls -/

inductive Call where
  | deploy (id serverId artifactId : String)
  | reconcile (ids : String → String) (serverId : String) (artifactIds : List String)
  | remove (serverId installationId : String)
  | register (fresh : Fresh) (input : RegistryVersion)
  | upload (fresh : Fresh) (file : File)
  | deleteArtifact (artifactId : String)

/-- What a call runs, whatever it returns. -/
abbrev Code := Prog Request (Settled Error Answer) (Except Error Unit)

def codeOf (parseUrl : String → Option Url) : Call → Code
  | .deploy id serverId artifactId =>
    (do let _ ← deploy id serverId artifactId : Task Unit).run
  | .reconcile ids serverId artifactIds => (reconcile ids serverId artifactIds).run
  | .remove serverId installationId => (remove serverId installationId).run
  | .register fresh input => (do let _ ← register parseUrl fresh input : Task Unit).run
  | .upload fresh file => (do let _ ← upload fresh file : Task Unit).run
  | .deleteArtifact artifactId => (do let _ ← deleteArtifact artifactId : Task Unit).run

inductive Session where
  | running (code : Code)
  | transacting (tx : Tx) (k : Except Error Unit → Code)

def Session.tx? : Session → Option Tx
  | .running _ => none
  | .transacting tx _ => some tx

structure System where
  state : State
  /-- The ids given to artifacts so far, with their projects. -/
  issued : List (String × (PluginProvider × String)) := []
  sessions : List Session := []

namespace System

def tx? (x : System) (i : Nat) : Option Tx := x.sessions[i]?.bind (·.tx?)

/-- The open transactions other than that of a session. -/
def others (x : System) (i : Nat) : List Tx :=
  (List.range x.sessions.length).filterMap fun j => if j = i then none else x.tx? j

def setSession (x : System) (i : Nat) (session : Session) : System :=
  { x with sessions := x.sessions.set i session }

/-- Whether a query outside of transactions has to wait for one. -/
def blocked (x : System) (i : Nat) : Request → Bool
  | .deletePlugins w => (x.others i).any fun tx =>
    x.state.db.plugins.any fun p => w.matches x.state.db p && tx.writes p.id
  | .upsertArtifact key _ _ => (x.others i).any fun tx =>
    x.state.db.artifacts.any fun a => a.key == key && tx.deletedArtifacts.contains a.id
  | _ => false

/-- The id of the artifact a query may create, with its project. -/
def created : Request → List (String × (PluginProvider × String))
  | .upsertArtifact _ _ create => [(create.id, create.project)]
  | _ => []

/-- A `cuid()` is not handed out twice. -/
def fresh (x : System) (c : Request) : Bool :=
  (created c).all fun e => x.issued.all fun e' => e'.1 != e.1

end System

inductive Label where
  | start (call : Call)
  /-- Take a side where two requests are sent together. -/
  | turn (i : Nat) (left : Bool)
  /-- Send the next request, or begin the next transaction. -/
  | ask (i : Nat) (fate : Fate) (web : String → Option Bytes)
  | look (i : Nat)
  | act (i : Nat)
  | commit (i : Nat) (answered : Bool)
  | abort (i : Nat)

def System.next (parseUrl : String → Option Url) (x : System) : Label → Option System
  | .start call => some { x with sessions := x.sessions ++ [.running (codeOf parseUrl call)] }
  | .turn i left =>
    match x.sessions[i]? with
    | some (.running (.choose p q)) => some (x.setSession i (.running (if left then p else q)))
    | _ => none
  | .ask i fate web =>
    match x.sessions[i]? with
    | some (.running (.call (.transaction statements) k)) =>
      some (x.setSession i (.transacting { rest := statements } k))
    | some (.running (.call c k)) =>
      if x.blocked i c ∨ ¬ x.fresh c then none
      else
        let out := answer web (fun _ => fate) c x.state
        some { (x.setSession i (.running (k out.1))) with
          state := out.2, issued := x.issued ++ System.created c }
    | _ => none
  | .look i =>
    match x.sessions[i]? with
    | some (.transacting tx k) =>
      (tx.look x.state.db).map fun tx => x.setSession i (.transacting tx k)
    | _ => none
  | .act i =>
    match x.sessions[i]? with
    | some (.transacting tx k) =>
      (tx.act x.state.db (x.others i)).map fun tx => x.setSession i (.transacting tx k)
    | _ => none
  | .commit i answered =>
    match x.sessions[i]? with
    | some (.transacting tx k) =>
      if tx.rest = [] then
        some { (x.setSession i (.running (k (if answered then .ok () else .error .rejected)))) with
          state := { x.state with db := tx.view x.state.db } }
      else none
    | _ => none
  | .abort i =>
    match x.sessions[i]? with
    | some (.transacting _ k) => some (x.setSession i (.running (k (.error .rejected))))
    | _ => none

end Minikura.Registry
