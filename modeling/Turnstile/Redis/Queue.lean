import Turnstile.Redis.Client
import Turnstile.Service

/-!
# Queues kept in Redis lists

A queue is a plain list of identities under one key: an identity is appended at the tail, and the
head is removed.  Anybody who appends to the same list takes part in the same queue.

Errors of the client become errors of the store: a lost connection or a timeout says that the
store cannot be reached, any other error names the command that failed.  What is not an error of
the client passes unchanged.

## Main definitions

* `Queue.connect` - a queue on a client of its own, which must answer first.
* `serveStore` - a store of queues, served by Redis lists.
-/

namespace Turnstile
namespace Redis

variable {τ : Type}

/-- An error of the client as the failure of a command of the store at `endpoint`. -/
def asStoreFailure (endpoint command key : String) : Failure τ → Failure τ
  | .client error =>
      match error.kind.family with
      | .connection | .timeout =>
          .semaphore (.storeConnection endpoint error.message) (some (.client error))
      | .command => .semaphore (.storeCommand command key error.message) (some (.client error))
      | .outside => .client error
  | failure => failure

abbrev Session (τ : Type) : Type → Type 1 :=
  Action (Connections τ) τ (Failure τ)

def dial (endpoint : String) : Session τ Client :=
  ExceptT.lift (@Plan.request (Connections τ) τ (.dial endpoint))

def hangUp (client : Client) : Plan (Connections τ) τ Unit :=
  @Plan.request (Connections τ) τ (.hangUp client)

/-- Sends a command.  A failure is reported for the store under the name `label`. -/
def call (label key : String) (client : Client) (command : Command) :
    Session τ command.Reply :=
  ExceptT.mk do
    let reply ← @Plan.request (Connections τ) τ (.call client command)
    pure (Except.mapError (asStoreFailure label command.verb.name key) reply)

/-- A list under a key, used over a client. -/
structure Queue where
  client : Client
  key : String
  /-- Whether closing the queue hangs up its client. -/
  ownsClient : Bool

namespace Queue

def label (queue : Queue) : String :=
  queue.client.arguments.label

/-- Makes a client and a queue that owns it.  A client whose server cannot be reached is hung up
again. -/
def connect (endpoint key : String) : Session τ Queue := do
  let client ← dial endpoint
  tryCatch (call endpoint key client .ping) fun e => do
    if e.isA .semaphore && e.isA .connection then
      ExceptT.lift (hangUp client)
    throw e
  pure ⟨client, key, true⟩

def send (queue : Queue) (command : Command) : Session τ command.Reply :=
  call queue.label queue.key queue.client command

def push (queue : Queue) (id : String) : Session τ Nat :=
  queue.send (.rpush queue.key id)

def position (queue : Queue) (id : String) : Session τ (Option Nat) :=
  queue.send (.lpos queue.key id)

def decodeItems : List Item → Except (Failure τ) (List String)
  | [] => .ok []
  | item :: rest =>
      match item.decode? with
      | none => .error .undecodable
      | some s => (decodeItems rest).map (s :: ·)

/-- Removes up to `count` entries from the head.  A queue that does not exist has none. -/
def pop (queue : Queue) (count : Int) : Session τ (List String) := do
  let popped : Option (List Item) ← queue.send (.lpop queue.key count)
  ExceptT.mk (.pure (decodeItems (popped.getD [])))

def expire (queue : Queue) (seconds : Int) : Session τ Bool :=
  queue.send (.expire queue.key seconds)

def length (queue : Queue) : Session τ Nat :=
  queue.send (.llen queue.key)

/-- Hangs up the client if the queue owns it. -/
def close (queue : Queue) : Plan (Connections τ) τ Unit :=
  if queue.ownsClient then hangUp queue.client else pure ()

def text (mode : Mode) (queue : Queue) : String :=
  let kind := match mode with
    | .blocking => "RedisQueue"
    | .cooperative => "AIORedisQueue"
  "<" ++ kind ++ " key=" ++ quoted queue.key ++ " endpoint=" ++ quoted queue.label ++ ">"

end Queue

def serveStore : (r : StoreRequest Queue) → Plan (Connections τ) τ (r.Answer Queue τ)
  | .connect endpoint key => (Queue.connect endpoint key).run
  | .push queue id => (queue.push id).run
  | .position queue id => (queue.position id).run
  | .pop queue count => (queue.pop count).run
  | .expire queue seconds => (queue.expire seconds).run
  | .length queue => queue.length.run
  | .close queue => queue.close

end Redis
end Turnstile
