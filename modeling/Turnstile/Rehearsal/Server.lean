import Turnstile.Redis.Keyspace

/-!
# A server that can fail

For a rehearsal, a server can be given faults: a command fails at chosen occurrences, before or
after it has taken effect.  It can be down altogether, and every command can take time on its way
to the server and on its way back.
-/

namespace Turnstile
namespace Rehearsal

open Redis

structure Fault (τ : Type) where
  verb : Command.Verb
  /-- The occurrences of the command that fail, counted from one.  All of them if absent. -/
  occurrences : Option (List Nat)
  /-- Whether the command takes effect before it fails. -/
  afterEffect : Bool
  failure : Failure τ

def Fault.strikes {τ : Type} (fault : Fault τ) (verb : Command.Verb) (occurrence : Nat) : Bool :=
  fault.verb == verb &&
    match fault.occurrences with
    | none => true
    | some occurrences => occurrences.contains occurrence

structure Server (τ : Type) where
  keys : Keyspace τ := {}
  arguments : Arguments := {}
  /-- Whether clients of the server hand out text rather than bytes. -/
  decodes : Bool := false
  down : Bool := false
  /-- Whether what the server keeps is shown. -/
  shown : Bool := true
  faults : List (Fault τ) := []
  /-- The time that a command takes before it has its effect. -/
  latency : List (Command.Verb × τ) := []
  /-- The time that a reply takes after the effect. -/
  replyLatency : List (Command.Verb × τ) := []
  /-- The commands that were received, the latest one first. -/
  received : List Command.Verb := []

namespace Server

variable {τ : Type} [Seconds τ]

/-- What is found at an endpoint where no server was set up: one that is down, and that is never
shown. -/
def missing : Server τ :=
  { down := true, shown := false }

/-- The response to a command, and its effect.  The first fault planned for this occurrence of the
command strikes.  One that strikes after the effect hides the reply, unless the client fails to
read it. -/
def run (server : Server τ) (now : τ) (command : Command) :
    Response τ command.Reply × Server τ :=
  let received := command.verb :: server.received
  let keys := server.keys.purge now
  let (response, changed) := keys.run server.decodes now command
  match server.faults.find? (·.strikes command.verb (received.count command.verb)) with
  | some fault =>
      if fault.afterEffect then
        let server := { server with received := received, keys := changed }
        match response with
        | .unread failure => (.unread failure, server)
        | .read _ => (.ofFailure fault.failure, server)
      else (.ofFailure fault.failure, { server with received := received, keys := keys })
  | none =>
      if server.down then
        (.refuse .refused, { server with received := received, keys := keys })
      else
        (response, { server with received := received, keys := changed })

end Server
end Rehearsal
end Turnstile
