import Turnstile.Blocking
import Turnstile.Cooperative
import Turnstile.Proofs.Redis.Items
import Turnstile.Redis.Queue

/-!
# What comes of a command

A command is answered by its server, or fails on the way.  One that fails may have taken effect or
not, and its caller is not told which.  Either way it is known what becomes of the list under a
key, if the command is one of those that a semaphore sends.

Most failures let no caller give back an entry.  They are called ordinary, and a server answers
with no others.

## Main statements

* `Keyspace.Executed.lists` - a command that took effect does what it says, and else nothing.
* `Keyspace.Executed.of_error` - a command fails in an ordinary way, unless something else goes
  wrong.
-/

namespace Turnstile

open Redis

variable {τ : Type}

/-!
## Ordinary failures
-/

/-- A failure that lets no caller give back an entry: neither a timeout of any kind, nor an
interruption, nor a position beyond the largest tolerated one. -/
structure Failure.Ordinary (e : Failure τ) : Prop where
  noTimeout : e.isA .timeout = false
  noRefusal : Cooperative.isRefusal e = false

theorem Failure.Ordinary.asStoreFailure {e : Failure τ} (he : e.Ordinary)
    (endpoint command key : String) : (asStoreFailure endpoint command key e).Ordinary := by
  cases e with
  | client error =>
      dsimp only [Redis.asStoreFailure]
      constructor
      · cases error.kind.family <;> rfl
      · cases error.kind.family <;> rfl
  | _ => exact he

theorem Failure.Ordinary.ofUnmeasurable (e : Unmeasurable) :
    (Failure.ofUnmeasurable e : Failure τ).Ordinary := by
  cases e with
  | infinite => exact ⟨rfl, rfl⟩
  | undefined => exact ⟨rfl, rfl⟩

theorem Failure.Ordinary.isRefusal {e : Failure τ} (he : e.Ordinary) :
    Blocking.isRefusal e = false := by
  cases he with
  | mk noTimeout noRefusal =>
      cases e with
      | semaphore error cause =>
          cases error with
          | acquireTimeout key timeout elapsed => cases noTimeout
          | positionExceeded position maxPosition => cases noRefusal
          | _ => rfl
      | _ => rfl

theorem Blocking.isRefusal_asStoreFailure {e : Failure τ} (he : isRefusal e = false)
    (endpoint command key : String) :
    isRefusal (asStoreFailure endpoint command key e) = false := by
  cases e with
  | client error =>
      dsimp only [asStoreFailure]
      cases error.kind.family <;> rfl
  | _ => exact he

variable [Seconds τ]

/-!
## Effects
-/

def Redis.Command.effect : Command → List ByteArray → List ByteArray
  | .rpush _ id, line => line ++ [id.toUTF8]
  | .lpop .., line => line.tail
  | _, line => line

/-- The commands that a semaphore sends about the queue under a key.  Heads are removed one by one,
and no expiry is in the past. -/
def Redis.Command.OfQueue (key : String) : Command → Prop
  | .ping => True
  | .rpush key' _ | .lpos key' _ | .llen key' => key' = key
  | .lpop key' count => key' = key ∧ count = 1
  | .expire key' seconds => key' = key ∧ 1 ≤ seconds

namespace Redis.Keyspace

theorem Lists.run {keys : Keyspace τ} {key : String} {line : List ByteArray}
    (h : keys.Lists key line) {command : Command} (hqueue : command.OfQueue key) (decodes : Bool)
    (time : τ) : (keys.run decodes time command).2.Lists key (command.effect line) := by
  cases command with
  | ping => exact h
  | rpush key' id =>
      rcases hqueue with rfl
      exact h.rpush id
  | lpos key' id => exact h
  | lpop key' count =>
      rcases hqueue with ⟨rfl, rfl⟩
      exact h.lpop decodes
  | expire key' seconds =>
      rcases hqueue with ⟨rfl, hseconds⟩
      exact h.expire time hseconds
  | llen key' => exact h

omit [Seconds τ] in
theorem refuse_ordinary {α : Type} {error : ClientError} {e : Failure τ}
    (h : (Response.refuse error : Response τ α).reply = .error e) : e.Ordinary := by
  cases h
  exact ⟨rfl, rfl⟩

theorem run_ordinary {keys : Keyspace τ} {decodes : Bool} {time : τ} {command : Command}
    {e : Failure τ} (h : (keys.run decodes time command).1.reply = .error e) : e.Ordinary := by
  cases command with
  | ping => cases h
  | rpush key id =>
      replace h : (keys.rpush key id).1.reply = .error e := h
      unfold rpush at h
      split at h
      · exact refuse_ordinary h
      · cases h
  | lpos key id =>
      replace h : (keys.lpos key id).reply = .error e := h
      unfold lpos at h
      split at h
      · exact refuse_ordinary h
      · cases h
  | lpop key count =>
      replace h : (keys.lpop decodes key count).1.reply = .error e := h
      unfold lpop at h
      split at h
      · exact refuse_ordinary h
      · split at h
        · exact refuse_ordinary h
        · split at h
          · cases h
          · dsimp only at h
            split at h
            · cases h
              exact ⟨rfl, rfl⟩
            · cases h
  | expire key seconds =>
      replace h : (keys.expire time key seconds).1.reply = .error e := h
      unfold expire at h
      split at h
      · cases h
      · split at h
        · cases h
        · split at h
          · cases h
            exact ⟨rfl, rfl⟩
          · cases h
  | llen key =>
      replace h : (keys.llen key).reply = .error e := h
      unfold llen at h
      split at h
      · exact refuse_ordinary h
      · cases h

/-!
## Executions
-/

/-- What comes of a command: it is answered, it fails without effect, or it takes effect and fails
all the same.  The flag says whether it took effect. -/
inductive Executed (faults : Failure τ → Prop) (keys : Keyspace τ) (command : Command) :
    Bool → Except (Failure τ) command.Reply → Keyspace τ → Prop where
  | answered (decodes : Bool) (time : τ) :
      Executed faults keys command true (keys.run decodes time command).1.reply
        (keys.run decodes time command).2
  | refused {e : Failure τ} (fault : faults e) : Executed faults keys command false (.error e) keys
  | lost {e : Failure τ} (fault : faults e) (decodes : Bool) (time : τ) :
      Executed faults keys command true (.error e) (keys.run decodes time command).2

variable {keys keys' : Keyspace τ} {faults : Failure τ → Prop} {command : Command} {took : Bool}
  {reply : Except (Failure τ) command.Reply}

theorem Executed.lists {key : String} {line : List ByteArray}
    (h : Executed faults keys command took reply keys') (hlists : keys.Lists key line)
    (hqueue : command.OfQueue key) :
    keys'.Lists key (if took then command.effect line else line) := by
  cases h with
  | answered decodes time => exact hlists.run hqueue decodes time
  | refused fault => exact hlists
  | lost fault decodes time => exact hlists.run hqueue decodes time

theorem Executed.lists_same {key : String} {line : List ByteArray}
    (h : Executed faults keys command took reply keys') (hlists : keys.Lists key line)
    (hqueue : command.OfQueue key) (hsame : command.effect line = line) :
    keys'.Lists key line := by
  have hlists' := h.lists hlists hqueue
  rw [hsame, ite_self] at hlists'
  exact hlists'

theorem Executed.of_ok {a : command.Reply}
    (h : Executed faults keys command took reply keys') (hreply : reply = .ok a) :
    ∃ decodes time, reply = (keys.run decodes time command).1.reply := by
  cases h with
  | answered decodes time => exact ⟨decodes, time, rfl⟩
  | refused fault => cases hreply
  | lost fault decodes time => cases hreply

theorem Executed.of_faultless
    (h : Executed faults keys command took reply keys') (hfaultless : ¬ ∃ e, faults e) :
    ∃ decodes time, reply = (keys.run decodes time command).1.reply := by
  cases h with
  | answered decodes time => exact ⟨decodes, time, rfl⟩
  | refused fault => exact absurd ⟨_, fault⟩ hfaultless
  | lost fault decodes time => exact absurd ⟨_, fault⟩ hfaultless

theorem Executed.of_error (h : Executed faults keys command took reply keys') {e : Failure τ}
    (hreply : reply = .error e) : e.Ordinary ∨ faults e := by
  cases h with
  | answered decodes time => exact Or.inl (run_ordinary hreply)
  | refused fault =>
      cases hreply
      exact Or.inr fault
  | lost fault decodes time =>
      cases hreply
      exact Or.inr fault

theorem Executed.ordinary (h : Executed faults keys command took reply keys')
    (hfaults : ∀ e, faults e → e.Ordinary) {e : Failure τ} (hreply : reply = .error e) :
    e.Ordinary := by
  rcases h.of_error hreply with hordinary | hfault
  · exact hordinary
  · exact hfaults e hfault

end Redis.Keyspace
end Turnstile
