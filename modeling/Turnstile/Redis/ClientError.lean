import Turnstile.Redis.Redirection

/-!
# Errors of a Redis client

A client reports its failures by kind.  What matters to a queue is only the family of a kind:
the connection was lost, it took too long, or the server refused the command.  Some kinds are
raised by a client library and yet stand outside its own hierarchy of errors.

Two kinds redirect the client.  Their message must say where to, and else the client fails to read
the error.
-/

namespace Turnstile
namespace Redis

inductive Family where
  | connection
  | timeout
  | command
  | outside
  deriving DecidableEq

inductive ErrorKind where
  | general
  | connection
  | timeout
  | authentication
  | authorization
  | busyLoading
  | maxConnections
  | externalAuthentication
  | invalidResponse
  | response
  | data
  | subscription
  | watch
  | missingScript
  | outOfMemory
  | aborted
  | readOnly
  | permission
  | moduleLoading
  | argumentCount
  | lock
  | lockNotOwned
  | cluster
  | clusterDown
  | masterDown
  | ask
  | moved
  | tryAgain
  | crossSlot
  | childDeadlocked
  | clusterSetup
  | slotNotCovered
  | crossSlotTransaction
  | pipelineStack
  | commandPolicy
  /-- A kind of which only the name is known. -/
  | other (name : String)
  deriving DecidableEq

/-- The family of a kind.  Failed authentication, a server that is still loading and an exhausted
pool count as lost connections, and unless more is known the server refused the command. -/
def ErrorKind.family : ErrorKind → Family
  | .connection | .authentication | .authorization | .busyLoading | .maxConnections
  | .externalAuthentication => .connection
  | .timeout => .timeout
  | .childDeadlocked | .clusterSetup | .slotNotCovered | .crossSlotTransaction
  | .pipelineStack | .commandPolicy => .outside
  | _ => .command

/-- Whether a kind sends the client to another node. -/
def ErrorKind.redirects : ErrorKind → Bool
  | .ask | .moved => true
  | _ => false

structure ClientError where
  kind : ErrorKind
  message : String
  deriving DecidableEq

/-- What keeps a client from reading an error. -/
def ClientError.defect? (error : ClientError) : Option Redirection.Defect :=
  if error.kind.redirects then
    match Redirection.ofText error.message with
    | .error defect => some defect
    | .ok _ => none
  else none

/-- The command needs a list and the key holds something else. -/
def ClientError.wrongType : ClientError :=
  ⟨.response, "WRONGTYPE Operation against a key holding the wrong kind of value"⟩

/-- The count of a removal is negative. -/
def ClientError.negativeCount : ClientError :=
  ⟨.response, "value is out of range, must be positive"⟩

def ClientError.refused : ClientError :=
  ⟨.connection, "Connection refused."⟩

end Redis
end Turnstile
