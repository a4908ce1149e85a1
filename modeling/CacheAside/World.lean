import CacheAside.Task
import CacheAside.Tally
import CacheAside.Registry.Filing
import CacheAside.Metrics.Collector
import CacheAside.Journal
import CacheAside.Update
import CacheAside.Calendar
import CacheAside.Payload

/-! # The service and its surroundings

The memory is what the running service holds itself; the server and the network around it answer its
commands. The network decides from all earlier exchanges whether a command fails and how many seconds
pass before it arrives, so every pattern of failures and delays is some network. `World.run` carries a
task out: a failing command leaves the server as it is. -/

namespace CacheAside
set_option autoImplicit false

/-! ## Memory -/

/-- The operations that can be out of order as a whole. -/
inductive Duty where
  | readSnapshot
  | readExtended
  | dropAsset
  | dropExtended
  | readNews
  | readTrending
  | dropNews
  | dropCategory
  | dropTrending
  | serveSnapshot
  | serveExtended
  | serveNews
  | serveTrending
  | fetchSnapshot
  | fetchExtended
  | fetchNews
  | fetchTrending
deriving DecidableEq, Repr

/-- The clients of the store, numbered as they are made. -/
structure Clients where
  /-- The one in use. -/
  held : Option Nat
  /-- How many were made. -/
  made : Nat

namespace Clients

def none : Clients := ⟨.none, 0⟩

/-- With a new one in use. -/
def make (cs : Clients) : Clients := ⟨some cs.made, cs.made + 1⟩

/-- With none in use. -/
def drop (cs : Clients) : Clients := { cs with held := .none }

end Clients

structure Memory where
  /-- Decides the lifetimes of keys. -/
  registry : Registry
  /-- The registry as it was filed, where names or starts in it are no texts. -/
  misfiled : Option FiledRegistry
  /-- The lifetime of keys that no category owns. -/
  otherwise : Seconds
  /-- Decides the buckets of keys. -/
  tallyRegistry : Registry
  endpoint : Endpoint
  clients : Clients
  /-- Newest first. -/
  journal : List Note
  tally : Tally
  collector : Option Collector
  assetSubscribers : List Subscriber
  newsSubscribers : List Subscriber
  /-- Newest first. -/
  deliveries : List Delivery
  /-- The keys for which a provider was called, newest first. -/
  fetches : List String
  /-- What providers delivered for which keys, newest first. -/
  fetched : List (String × Payload)
  clock : Instant
  /-- When the service was made. -/
  upSince : Instant
  /-- Random numbers from zero to one, used in turn again and again. -/
  draws : List Float
  /-- How long the numbers and how deep the values may be that are read and written as JSON. -/
  limits : Json.Limits
  /-- The id of the request being answered. -/
  requestId : Option String
  /-- The ids for requests that bring none. -/
  spareId : Nat → String
  /-- How many of those ids are used up. -/
  spareIdsUsed : Nat
  /-- What is out of order, and how it fails. -/
  outages : List (Duty × Failure)

namespace Memory

/-- The memory of a service that has done nothing yet: it has no client, but its own invalidation. -/
def start (registry : Registry) (otherwise : Seconds) (endpoint : Endpoint)
    (collector : Option Collector) (clock : Instant) (draws : List Float) (spareId : Nat → String) :
    Memory where
  registry
  misfiled := none
  otherwise
  tallyRegistry := registry
  endpoint
  clients := .none
  journal := []
  tally := Tally.start registry
  collector
  assetSubscribers := [.invalidation]
  newsSubscribers := [.invalidation]
  deliveries := []
  fetches := []
  fetched := []
  clock
  upSince := clock
  draws
  limits := .standard
  requestId := none
  spareId
  spareIdsUsed := 0
  outages := []

/-- The memory with registries of its own for the lifetimes and for the buckets of keys. -/
def withRegistries (m : Memory) (filed tallied : FiledRegistry) : Memory :=
  { m with
    registry := filed.registry
    misfiled := filed.misfiled?
    tallyRegistry := tallied.registry
    tally := Tally.start tallied.registry }

def subscribers (m : Memory) : Topic → List Subscriber
  | .asset => m.assetSubscribers
  | .news => m.newsSubscribers

/-- Adds a subscriber behind the others. -/
def subscribe (m : Memory) (topic : Topic) (s : Subscriber) : Memory :=
  match topic with
  | .asset => { m with assetSubscribers := m.assetSubscribers ++ [s] }
  | .news => { m with newsSubscribers := m.newsSubscribers ++ [s] }

/-- Whether there is a client. -/
def connected (m : Memory) : Bool := m.clients.held.isSome

def bucket (m : Memory) (key : String) : String := m.tallyRegistry.bucket key

/-- The seconds that pass on the clock while a task runs: it stands still. -/
def lapse : Float := 0.0

/-- The seconds since the service was made. -/
def uptime (m : Memory) : Float := m.clock.stamp - m.upSince.stamp

def outage? (m : Memory) (duty : Duty) : Option Failure := Rows.find? duty m.outages

end Memory

/-! ## Surroundings -/

/-- A command that was given to a client, and its failure if it failed. A client is opened without one. -/
structure Exchange where
  client : Option Nat
  command : Command
  failure : Option Failure

structure Network where
  /-- The failure of a command after these exchanges, the latest first. -/
  failure : List Exchange → Command → Option Failure
  /-- The seconds that pass before the command arrives. -/
  delay : List Exchange → Command → Nat

/-- A network without failures and delays. -/
def Network.calm : Network := ⟨fun _ _ => none, fun _ _ => 0⟩

/-- The network on which, after these exchanges, the commands of one kind fail: always, or so many
times. -/
def Network.arm (n : Network) (past : List Exchange) (kind : Command → Bool) (f : Failure)
    (times : Option Nat) : Network :=
  { n with
    failure := fun history c =>
      if kind c then
        let since := (history.take (history.length - past.length)).filter fun e => kind e.command
        if times.all (since.length < ·) then some f else none
      else n.failure history c }

structure World where
  memory : Memory
  server : Server
  network : Network
  /-- Newest first. -/
  history : List Exchange

namespace World

/-- The server when a command arrives. -/
def onArrival (w : World) (c : Command) : Server :=
  match w.network.delay w.history c with
  | 0 => w.server
  | seconds + 1 => w.server.elapse (.whole (seconds + 1 : Nat))

/-- What a command to a client is answered. -/
def answer (w : World) (client : Option Nat) (c : Command) : Except Failure c.Reply × World :=
  let server := w.onArrival c
  match w.network.failure w.history c with
  | some f => (.error f, { w with server := server, history := ⟨client, c, some f⟩ :: w.history })
  | none =>
    let (reply, server) := server.apply c
    (.ok reply, { w with server := server, history := ⟨client, c, none⟩ :: w.history })

/-- Carries a task out to its end; there is nobody to wait for at a pause. -/
def run {α : Type} : Task Memory α → World → α × World
  | .done a, w => (a, w)
  | .look k, w => run (k w.memory) w
  | .keep m k, w => run k { w with memory := m }
  | .call client c k, w => run (k (w.answer client c).1) (w.answer client c).2
  | .pause k, w => run k w

/-- Carries a task out up to its next pause. -/
def runToPause {α : Type} : Task Memory α → World → Task Memory α × World
  | .done a, w => (.done a, w)
  | .look k, w => runToPause (k w.memory) w
  | .keep m k, w => runToPause k { w with memory := m }
  | .call client c k, w => runToPause (k (w.answer client c).1) (w.answer client c).2
  | .pause k, w => (k, w)

/-- Carries a task on as far as it goes on its own, up to its next command or pause. -/
def settle {α : Type} : Task Memory α → World → Task Memory α × World
  | .done a, w => (.done a, w)
  | .look k, w => settle (k w.memory) w
  | .keep m k, w => settle k { w with memory := m }
  | .call client c k, w => (.call client c k, w)
  | .pause k, w => (.pause k, w)

/-- Carries out the command or ends the pause that a task has come to; any other task is carried on up to its next
one. Others may go on after a step, so they may also come between a task and the command that it is about to give. -/
def step {α : Type} : Task Memory α → World → Task Memory α × World
  | .done a, w => (.done a, w)
  | .look k, w => settle (k w.memory) w
  | .keep m k, w => settle k { w with memory := m }
  | .call client c k, w => (k (w.answer client c).1, (w.answer client c).2)
  | .pause k, w => (k, w)

@[simp] theorem run_done {α : Type} (a : α) (w : World) : run (.done a) w = (a, w) := rfl

theorem run_bind {α β : Type} (t : Task Memory α) (f : α → Task Memory β) (w : World) :
    run (t.bind f) w = run (f (run t w).1) (run t w).2 := by
  induction t generalizing w with
  | done a => rfl
  | look k ih => exact ih _ w
  | keep m k ih => exact ih _
  | call client c k ih => exact ih _ _
  | pause k ih => exact ih w

end World
end CacheAside
