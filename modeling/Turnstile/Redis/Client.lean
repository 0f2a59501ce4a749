import Turnstile.Failure
import Turnstile.Plan.Basic

/-!
# Clients of a Redis server

A client sends commands to one server over a connection of its own.  `Connections` is the
interface through which queues use clients: dialling, one command at a time, and hanging up.

## Main definitions

* `Command` and `Command.Reply` - the commands that a queue needs, each with its own kind of reply.
* `Response` - what a client makes of what comes back.
* `Arguments.label` - the short name of the server that a client is connected to.
-/

namespace Turnstile
namespace Redis

/-- An item of a list as a client hands it out: as text, or as the bytes of a text. -/
inductive Item where
  | text (s : String)
  | bytes (b : ByteArray)

/-- The text of an item.  Bytes must be well-formed UTF-8. -/
def Item.decode? : Item → Option String
  | .text s => some s
  | .bytes b => String.fromUTF8? b

theorem Item.decode?_bytes_toUTF8 (s : String) :
    (Item.bytes s.toUTF8).decode? = some s := by
  unfold Item.decode? String.fromUTF8?
  exact dif_pos s.isValidUTF8

inductive Command where
  | ping
  | rpush (key id : String)
  | lpos (key id : String)
  | lpop (key : String) (count : Int)
  | expire (key : String) (seconds : Int)
  | llen (key : String)
  deriving DecidableEq

namespace Command

/-- The kinds of commands, without their arguments. -/
inductive Verb where
  | ping
  | rpush
  | lpos
  | lpop
  | expire
  | llen
  deriving DecidableEq

def verb : Command → Verb
  | ping => .ping
  | rpush .. => .rpush
  | lpos .. => .lpos
  | lpop .. => .lpop
  | expire .. => .expire
  | llen .. => .llen

def Verb.name : Verb → String
  | .ping => "PING"
  | .rpush => "RPUSH"
  | .lpos => "LPOS"
  | .lpop => "LPOP"
  | .expire => "EXPIRE"
  | .llen => "LLEN"

def key? : Command → Option String
  | ping => none
  | rpush key _ | lpos key _ | lpop key _ | expire key _ | llen key => some key

/-- What a server answers: the new length, the rank of an item, the removed items if the key
exists, whether the key exists, or the length. -/
def Reply : Command → Type
  | ping => Unit
  | rpush .. => Nat
  | lpos .. => Option Nat
  | lpop .. => Option (List Item)
  | expire .. => Bool
  | llen .. => Nat

end Command

/-- What a client makes of a command. -/
inductive Response (τ α : Type) where
  /-- It reads a reply, or an error. -/
  | read (reply : Except (Failure τ) α)
  /-- It cannot read what comes back. -/
  | unread (failure : Failure τ)

namespace Response

variable {τ α : Type}

def refuse (error : ClientError) : Response τ α :=
  .read (.error (.client error))

def ofFailure (failure : Failure τ) : Response τ α :=
  match failure.unreadable? with
  | some failure => .unread failure
  | none => .read (.error failure)

/-- What a caller is told, whether it could be read or not. -/
def reply : Response τ α → Except (Failure τ) α
  | .read reply => reply
  | .unread failure => .error failure

end Response

structure Arguments where
  path : Option String := none
  host : Option String := none
  portNumber : Option String := none
  database : Option String := none
  deriving DecidableEq

/-- The short name of a server: the path of its socket, or else its host and the number at which
it listens there, and then the number of its database. -/
def Arguments.label (arguments : Arguments) : String :=
  let database := arguments.database.getD "0"
  match arguments.path with
  | some path => "unix://" ++ path ++ "/" ++ database
  | none =>
      arguments.host.getD "localhost" ++ ":" ++ arguments.portNumber.getD "6379" ++ "/" ++ database

/-- A client, told apart from others by its number. -/
structure Client where
  number : Nat
  endpoint : String
  arguments : Arguments

inductive ClientRequest where
  /-- Makes a client for an endpoint.  Nothing is sent yet. -/
  | dial (endpoint : String)
  | call (client : Client) (command : Command)
  | hangUp (client : Client)

/-- The answers.  Only a command can fail.  An endpoint is taken to be well-formed, so that a client
can be made for each: that a malformed one is refused before anything is sent is left out. -/
def ClientRequest.Answer (τ : Type) : ClientRequest → Type
  | .dial .. => Client
  | .call _ command => Except (Failure τ) command.Reply
  | .hangUp .. => Unit

def Connections (τ : Type) : Interface where
  Request := ClientRequest
  Answer := ClientRequest.Answer τ

end Redis
end Turnstile
