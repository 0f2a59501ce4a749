import Turnstile.Redis.Client

/-!
# Commands that were sent

A dispatch is a command together with what came of it: whether it took effect at its server, and
what its sender was told.  The two need not agree, since an answer can be lost on the way.  What a
user of a queue has sent is a list of dispatches, of which those are counted that make entries or
remove heads.
-/

namespace Turnstile

open Redis

/-- A command that was sent, whether it took effect, and what its sender was told. -/
structure Dispatch (τ : Type) where
  command : Command
  took : Bool
  told : Except (Failure τ) command.Reply

namespace Dispatch

variable {τ : Type}

def makes (dispatch : Dispatch τ) : Bool :=
  match dispatch.command with
  | .rpush .. => dispatch.took
  | _ => false

/-- Whether the sender was told that an entry was made. -/
def enters (dispatch : Dispatch τ) : Bool :=
  match dispatch with
  | ⟨.rpush .., _, .ok _⟩ => true
  | _ => false

/-- The position at which an entry was made, as its sender was told. -/
def position? (dispatch : Dispatch τ) : Option Int :=
  match dispatch with
  | ⟨.rpush .., _, .ok (length : Nat)⟩ => some (length - 1)
  | _ => none

def removes (dispatch : Dispatch τ) : Bool :=
  match dispatch.command with
  | .lpop .. => true
  | _ => false

/-- Whether a head was removed, if there was one. -/
def pops (dispatch : Dispatch τ) : Bool :=
  match dispatch.command with
  | .lpop .. => dispatch.took
  | _ => false

end Dispatch
end Turnstile
