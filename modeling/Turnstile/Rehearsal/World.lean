import Turnstile.Rehearsal.Roster
import Turnstile.Rehearsal.Script
import Turnstile.Redis.Queue

/-!
# The world of a rehearsal

Everything that an operation can observe or change is in one value: a virtual clock, the servers,
the instances of semaphores with the slots they hold, the sources of identities and of random
numbers, and a record of the events so far.

The functions of this module are the single, timeless changes of that value.  Time passes only
between them.
-/

namespace Turnstile
namespace Rehearsal

inductive Event (τ : Type) where
  | clock (now : τ)
  | dialled (client : Nat) (endpoint : String)
  | hungUp (client : Nat)
  | called (client : Nat) (command : Redis.Command)
      (reply : Except (Failure τ) command.Reply)
  | slept (duration : τ)
  | announced (position : Int)
  | connecting (endpoint key : String)
  | estimated (position capacity : Int) (base result : τ)
  | recorded (mode : Mode) (entry : Entry τ)
  | begun (index : Nat)
  | settled (index : Nat) (outcome : Outcome τ)
  | done (outcome : Outcome τ)

structure Occurrence (τ : Type) where
  task : Option String
  event : Event τ

/-- A step that the world makes at a given time. -/
structure Scheduled (τ : Type) where
  time : τ
  index : Nat
  step : Step τ

/-- How an operation is run: in which mode, by which estimator, and for which instance. -/
structure Role where
  mode : Mode
  /-- The number of an estimator that reports what it computes. -/
  estimator : Option Nat := none
  reportsConnect : Bool := false
  /-- The number of the instance that holds the slots. -/
  holder : Option Nat := none

structure Instance (τ : Type) [Seconds τ] where
  semaphore : Semaphore τ
  role : Role
  /-- The slots that are held, the oldest one first. -/
  held : List (Ticket τ)

structure World (τ : Type) [Seconds τ] where
  mode : Mode
  clock : τ
  /-- The latest time among the events. -/
  shown : τ
  servers : Table (Server τ)
  clients : Nat := 0
  ids : List String
  issued : Nat := 0
  sleeps : Nat := 0
  /-- How many sleeps are allowed. -/
  limit : Nat
  estimators : List (Estimator τ) := []
  shared : RandomSource τ
  /-- The instances that were made, each told apart by its place.  An instance stays in use by
  those who found it under its name when the name is given to another one. -/
  instances : List (Instance τ) := []
  /-- The places of the instances that names stand for. -/
  semaphores : Table Nat := []
  queues : Table Redis.Queue := []
  agenda : List (Scheduled τ) := []
  task : Option String := none
  /-- The numbers, as players, of the tasks that names stand for. -/
  tasks : Table Nat := []
  roster : Roster τ := {}
  /-- What happened, the latest event first. -/
  events : List (Occurrence τ) := []

namespace World

variable {τ : Type} [Seconds τ]

/-- Adds an event.  A change of the clock becomes an event of its own before it. -/
def emit (event : Event τ) (world : World τ) : World τ :=
  let occurrence : Occurrence τ := ⟨world.task, event⟩
  if Seconds.same world.clock world.shown then
    { world with events := occurrence :: world.events }
  else
    { world with
      shown := world.clock
      events := occurrence :: ⟨none, .clock world.clock⟩ :: world.events }

def passTo (time : τ) (world : World τ) : World τ :=
  { world with clock := Seconds.later world.clock time }

def freshId (world : World τ) : String × World τ :=
  let issued := world.issued + 1
  match world.ids with
  | id :: rest => (id, { world with ids := rest, issued := issued })
  | [] => ("id" ++ toString issued, { world with issued := issued })

def serverAt (endpoint : String) (world : World τ) : Server τ :=
  (world.servers.get? endpoint).getD .missing

def putServer (endpoint : String) (server : Server τ) (world : World τ) : World τ :=
  { world with servers := world.servers.put endpoint server }

def newClient (endpoint : String) (world : World τ) : Redis.Client × World τ :=
  let number := world.clients + 1
  (⟨number, endpoint, (world.serverAt endpoint).arguments⟩, { world with clients := number })

def dial (endpoint : String) (world : World τ) : Redis.Client × World τ :=
  let (client, world) := world.newClient endpoint
  (client, world.emit (.dialled client.number endpoint))

def hangUp (client : Redis.Client) (world : World τ) : Unit × World τ :=
  ((), world.emit (.hungUp client.number))

/-- The time that a table gives for a kind of command, unless it is zero. -/
def delayOf (table : List (Redis.Command.Verb × τ)) (verb : Redis.Command.Verb) : Option τ :=
  match table.find? (·.1 == verb) with
  | some (_, duration) => if Seconds.same duration 0 then none else some duration
  | none => none

def latency (client : Redis.Client) (verb : Redis.Command.Verb) (world : World τ) : Option τ :=
  delayOf (world.serverAt client.endpoint).latency verb

def replyLatency (client : Redis.Client) (verb : Redis.Command.Verb) (world : World τ) :
    Option τ :=
  delayOf (world.serverAt client.endpoint).replyLatency verb

/-- Lets a command have its effect.  Only what the client can read is an event. -/
def call (client : Redis.Client) (command : Redis.Command) (world : World τ) :
    Redis.Response τ command.Reply × World τ :=
  let (response, server) := (world.serverAt client.endpoint).run world.clock command
  let world := world.putServer client.endpoint server
  match response with
  | .unread _ => (response, world)
  | .read reply => (response, world.emit (.called client.number command reply))

/-- Counts a sleep.  A blocking sleep cannot be negative. -/
def beginSleep (mode : Mode) (duration : τ) (world : World τ) :
    Except (Failure τ) Unit × World τ :=
  let world := world.emit (.slept duration)
  let world := { world with sleeps := world.sleeps + 1 }
  if world.limit < world.sleeps then (.error (.runtime "sleep limit reached"), world)
  else if mode = .blocking ∧ duration < 0 then
    (.error (.invalid "sleep length must be non-negative"), world)
  else (.ok (), world)

/-- Puts a back-off to work on given random numbers, which are drawn from the shared source if
there are none of its own. -/
def backoff [Rooted τ] (backoff : Backoff τ) (own : Option (RandomSource τ))
    (position capacity : Int) (base : τ) (world : World τ) :
    Except (Failure τ) (τ × Option (RandomSource τ)) × World τ :=
  match backoff.estimate Rooted.root? position capacity base ⟨own, world.shared⟩ with
  | .error e => (.error e, world)
  | .ok (duration, sources) => (.ok (duration, sources.own), { world with shared := sources.shared })

def consult [Rooted τ] (estimator : Estimator τ) (position capacity : Int) (base : τ)
    (world : World τ) : Except (Failure τ) (τ × Estimator τ) × World τ :=
  match estimator with
  | .listed [] => (.ok (0, .listed []), world)
  | .listed [value] => (.ok (value, .listed [value]), world)
  | .listed (value :: rest) => (.ok (value, .listed rest), world)
  | .failing message => (.error (.runtime message), world)
  | .computed settings own =>
      let (estimated, world) := world.backoff settings own position capacity base
      (estimated.map fun (duration, own) => (duration, .computed settings own), world)

/-- The time between two looks at a queue.  Without an estimator of its own an operation uses the
standard back-off. -/
def estimate [Rooted τ] (number : Option Nat) (position capacity : Int) (base : τ)
    (world : World τ) : Except (Failure τ) τ × World τ :=
  match number.bind (world.estimators[·]?), number with
  | some estimator, some number =>
      match world.consult estimator position capacity base with
      | (.error e, world) => (.error e, world)
      | (.ok (duration, estimator), world) =>
          let world := { world with estimators := world.estimators.set number estimator }
          (.ok duration, world.emit (.estimated position capacity base duration))
  | _, _ =>
      let (estimated, world) := world.backoff .standard none position capacity base
      (estimated.map (·.1), world)

def instance? (name : String) (world : World τ) : Option (Instance τ) :=
  (world.semaphores.get? name).bind (world.instances[·]?)

def setHeld (number : Nat) (held : List (Ticket τ)) (world : World τ) : World τ :=
  { world with
    instances := world.instances.modify number fun user => { user with held := held } }

def hold (holder : Option Nat) (ticket : Ticket τ) (world : World τ) : Unit × World τ :=
  match holder with
  | none => ((), world)
  | some number =>
      match world.instances[number]? with
      | none => ((), world)
      | some user => ((), world.setHeld number (user.held ++ [ticket]))

def takeOldest (holder : Option Nat) (world : World τ) : Option (Ticket τ) × World τ :=
  match holder with
  | none => (none, world)
  | some number =>
      match world.instances[number]? with
      | none => (none, world)
      | some user =>
          match user.held with
          | [] => (none, world)
          | ticket :: rest => (some ticket, world.setHeld number rest)

def cast (choices : Choices τ) (holder : Option Nat) (world : World τ) : Role × World τ :=
  let role : Role :=
    { mode := world.mode, reportsConnect := choices.reportsConnect, holder := holder }
  match choices.estimator with
  | none => (role, world)
  | some estimator =>
      ({ role with estimator := some world.estimators.length },
        { world with estimators := world.estimators ++ [estimator] })

def create (name : String) (form : SemaphoreForm τ) (choices : Choices τ) (world : World τ) :
    Outcome τ × World τ :=
  match form.build with
  | .error defect => (.error (.invalid defect.message), world)
  | .ok semaphore =>
      let number := world.instances.length
      let (role, world) := world.cast choices (some number)
      let answer : Answer τ :=
        .semaphore semaphore.queueKey semaphore.capacity 0 (semaphore.text world.mode)
      (.ok answer,
        { world with
          instances := world.instances ++ [⟨semaphore, role, []⟩]
          semaphores := world.semaphores.put name number })

/-- Changes the list under a key, and drops the key if no items are left, whatever it held.  A key
that is made to hold something else has no deadline. -/
def changeKey (now : τ) (change : KeyChange τ) (keys : Redis.Keyspace τ) :
    Except (Failure τ) Unit × Redis.Keyspace τ :=
  let items := change.putInFront ++ keys.items change.key ++ change.append
  let items := items.drop change.removeFromHead
  let items := match change.removeEqual with
    | none => items
    | some item => items.filter (· != item)
  let keys := keys.setItems change.key items
  let finish := fun (keys : Redis.Keyspace τ) =>
    let keys := if change.delete then keys.drop change.key else keys
    if change.makeOther then (keys.drop change.key).setOther change.key else keys
  match change.secondsToLive with
  | none => (.ok (), finish keys)
  | some (.error e) => (.error e, keys)
  | some (.ok seconds) =>
      let keys := if items.isEmpty then keys else keys.setDeadline change.key (now + seconds)
      (.ok (), finish keys)

def change (change : ServerChange τ) (world : World τ) : Outcome τ × World τ :=
  let server := world.serverAt change.endpoint
  let keys := server.keys.purge world.clock
  let changed : Except (Failure τ) Unit × Redis.Keyspace τ := match change.key with
    | none => (.ok (), keys)
    | some key => changeKey world.clock key keys
  let server : Server τ := { server with keys := changed.2 }
  match changed.1 with
  | .error e => (.error e, world.putServer change.endpoint server)
  | .ok () =>
      let server : Server τ :=
        { server with
          down := change.down.getD server.down
          faults := change.faults.getD server.faults }
      match change.latency with
      | none => (.ok .nothing, world.putServer change.endpoint server)
      | some (.ok latency) =>
          (.ok .nothing, world.putServer change.endpoint { server with latency := latency })
      | some (.error e) => (.error e, world.putServer change.endpoint server)

def cancel (name : String) (world : World τ) : Outcome τ × World τ :=
  match world.tasks.get? name with
  | none => (.ok (.flag false), world)
  | some number =>
      let (running, roster) := world.roster.interrupt number
      (.ok (.flag running), { world with roster := roster })

def pending (world : World τ) : List String :=
  world.tasks.filterMap fun (name, number) =>
    if world.roster.hasEnded number then none else some name

end World

structure Snapshot (τ : Type) where
  clock : τ
  servers : List (String × List (String × List ByteArray × Option τ))
  held : List (String × Nat)

/-- The lists that have not lapsed, and the slots that are held. -/
def World.snapshot {τ : Type} [Seconds τ] (world : World τ) : Snapshot τ where
  clock := world.clock
  servers := (world.servers.filter (·.2.shown)).map fun (endpoint, server) =>
    let keys := server.keys.purge world.clock
    (endpoint, keys.lists.map fun (key, items) => (key, items, keys.deadlines.get? key))
  held := world.semaphores.filterMap fun (name, number) =>
    (world.instances[number]?).map fun user => (name, user.held.length)

end Rehearsal
end Turnstile
