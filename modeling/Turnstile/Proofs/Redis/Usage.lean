import Turnstile.Proofs.Redis.Items
import Turnstile.Redis.Queue
import Turnstile.Rehearsal.Server

/-!
# Uses of a queue

A queue is used by one method at a time: an identity is appended or looked for, heads are removed,
an expiry is set, or the length is asked for.  Each method sends one command to the server of the
queue, at some time and over a client that decodes or not, and makes something of the reply.

Items that are removed are texts if all of them are well-formed.  Then it does not matter whether
the client or the queue decodes them.  If one is not, nobody can read any of them.

## Main definitions

* `Use` and `Outcome` - what can be done with a queue, and what comes of it.
* `Visit.attended` - a use that is followed to its end.
* `Visit.Arrives` - the command of a use reaches its server.
* `texts?` - the texts of items, if all of them are texts.

## Main statements

* `Visit.attended_eq` - a use sends one command and reads the reply to it.
* `Visit.Arrives.response` - a command that arrives is answered by what the server keeps.
* `reading_lpop` - what becomes of removed items.
-/

namespace Turnstile

universe u v

/-- Follows a plan to its end in a world that answers it, if the plan only makes requests. -/
def Plan.answered {I : Interface.{u}} {W : Type v} {τ : Type}
    (answer : W → (r : I.Request) → I.Answer r × W) :
    {α : Type} → Plan I τ α → W → Option (α × W)
  | _, .pure a, w => some (a, w)
  | _, .ask r next, w => (next (answer w r).1).answered answer (answer w r).2
  | _, _, _ => none

namespace Redis

inductive Use where
  | push (id : String)
  | position (id : String)
  | pop (count : Int)
  | expire (seconds : Int)
  | length
  deriving DecidableEq

inductive Outcome where
  | length (length : Nat)
  | rank (rank : Option Nat)
  | removed (ids : List String)
  | held (held : Bool)
  deriving DecidableEq

variable {τ : Type}

namespace Use

def perform (queue : Queue) : Use → Session τ Outcome
  | .push id => do pure (.length (← queue.push id))
  | .position id => do pure (.rank (← queue.position id))
  | .pop count => do pure (.removed (← queue.pop count))
  | .expire seconds => do pure (.held (← queue.expire seconds))
  | .length => do pure (.length (← Queue.length queue))

def command (key : String) : Use → Command
  | .push id => .rpush key id
  | .position id => .lpos key id
  | .pop count => .lpop key count
  | .expire seconds => .expire key seconds
  | .length => .llen key

def reading {key : String} : (use : Use) → (use.command key).Reply → Except (Failure τ) Outcome
  | .push _, (count : Nat) => .ok (.length count)
  | .position _, (rank : Option Nat) => .ok (.rank rank)
  | .pop _, (popped : Option (List Item)) =>
      (Queue.decodeItems (popped.getD [])).map .removed
  | .expire _, (held : Bool) => .ok (.held held)
  | .length, (count : Nat) => .ok (.length count)

end Use

/-- A use of a queue at a time, over a client that decodes or not. -/
structure Visit (τ : Type) where
  queue : Queue
  decodes : Bool
  time : τ
  use : Use

variable [Seconds τ]

open Rehearsal

def answerAt (time : τ) (server : Server τ) :
    (r : (Connections τ).Request) → (Connections τ).Answer r × Server τ
  | .dial endpoint => (⟨0, endpoint, server.arguments⟩, server)
  | .call _ command => ((server.run time command).1.reply, (server.run time command).2)
  | .hangUp _ => ((), server)

namespace Visit

def meets (visit : Visit τ) (server : Server τ) : Server τ :=
  { server with decodes := visit.decodes }

def response (visit : Visit τ) (server : Server τ) :
    Response τ (visit.use.command visit.queue.key).Reply × Server τ :=
  (visit.meets server).run visit.time (visit.use.command visit.queue.key)

def attended (visit : Visit τ) (server : Server τ) :
    Option (Except (Failure τ) Outcome × Server τ) :=
  (visit.use.perform visit.queue).run.answered (answerAt visit.time) (visit.meets server)

def report (visit : Visit τ) : Failure τ → Failure τ :=
  asStoreFailure visit.queue.label (visit.use.command visit.queue.key).verb.name visit.queue.key

theorem answered_of_send {queue : Queue} {command : Command} {action : Session τ Outcome}
    {read : command.Reply → Except (Failure τ) Outcome}
    (haction : action.run = (queue.send command).run.bind fun
      | .ok reply => .pure (read reply)
      | .error e => .pure (.error e)) (time : τ) (server : Server τ) :
    action.run.answered (answerAt time) server =
      some (((server.run time command).1.reply.mapError
        (asStoreFailure queue.label command.verb.name queue.key)).bind read,
        (server.run time command).2) := by
  rw [haction]
  show Plan.answered (answerAt time) (match Except.mapError _ (server.run time command).1.reply with
    | .ok reply => .pure (read reply)
    | .error e => .pure (.error e)) (server.run time command).2 = _
  cases (server.run time command).1.reply with
  | ok reply => rfl
  | error e => rfl

/-- A use sends one command, and reads what comes back. -/
theorem attended_eq (visit : Visit τ) (server : Server τ) : visit.attended server =
    some (((visit.response server).1.reply.mapError visit.report).bind visit.use.reading,
      (visit.response server).2) := by
  rcases visit with ⟨queue, decodes, time, use⟩
  apply answered_of_send
  cases use with
  -- A removal has a step more than the other uses: the queue decodes what the client did not.
  | pop count =>
      refine (Plan.bind_assoc _ _ _).trans (congrArg (Plan.bind _) (funext fun ended => ?_))
      cases ended with
      | error e => rfl
      | ok popped =>
          show Plan.bind (.pure (Queue.decodeItems ((popped : Option (List Item)).getD []))) _ =
            .pure ((Queue.decodeItems ((popped : Option (List Item)).getD [])).map Outcome.removed)
          cases (Queue.decodeItems ((popped : Option (List Item)).getD []) :
            Except (Failure τ) (List String)) <;> rfl
  | _ =>
      refine congrArg (Plan.bind _) (funext fun ended => ?_)
      cases ended <;> rfl

/-- No fault is planned for this occurrence of the command of a use, and the server is up. -/
structure Arrives (visit : Visit τ) (server : Server τ) : Prop where
  unharmed : server.faults.find? (·.strikes (visit.use.command visit.queue.key).verb
    (((visit.use.command visit.queue.key).verb :: server.received).count
      (visit.use.command visit.queue.key).verb)) = none
  up : server.down = false

theorem Arrives.response {visit : Visit τ} {server : Server τ} (h : visit.Arrives server) :
    (visit.response server).1 = ((server.keys.purge visit.time).run visit.decodes visit.time
        (visit.use.command visit.queue.key)).1 ∧
      (visit.response server).2.keys = ((server.keys.purge visit.time).run visit.decodes visit.time
        (visit.use.command visit.queue.key)).2 := by
  rcases h with ⟨hunharmed, hup⟩
  unfold Visit.response Server.run meets
  dsimp only
  rw [hunharmed, hup]
  exact ⟨rfl, rfl⟩

end Visit

/-!
## Removed items
-/

def texts? (items : List ByteArray) : Option (List String) :=
  items.mapM String.fromUTF8?

theorem texts?_cons (item : ByteArray) (rest : List ByteArray) :
    texts? (item :: rest) =
      (String.fromUTF8? item).bind fun id => (texts? rest).map (id :: ·) := by
  unfold texts?
  rw [List.mapM_cons]
  cases String.fromUTF8? item with
  | none => rfl
  | some id => cases List.mapM String.fromUTF8? rest <;> rfl

theorem fromUTF8?_eq_some {item : ByteArray} {id : String} :
    String.fromUTF8? item = some id ↔ item = id.toUTF8 := by
  constructor
  · intro h
    unfold String.fromUTF8? at h
    split at h
    · cases h
      rfl
    · cases h
  · rintro rfl
    exact Item.decode?_bytes_toUTF8 id

theorem texts?_eq_some {items : List ByteArray} {ids : List String} :
    texts? items = some ids ↔ items = ids.map String.toUTF8 := by
  induction items generalizing ids with
  | nil =>
      cases ids with
      | nil => exact ⟨fun _ => rfl, fun _ => rfl⟩
      | cons id rest => exact ⟨nofun, nofun⟩
  | cons item rest ih =>
      rw [texts?_cons, Option.bind_eq_some_iff]
      constructor
      · rintro ⟨id, hid, hrest⟩
        rcases Option.map_eq_some_iff.mp hrest with ⟨ids', hids, rfl⟩
        rw [List.map_cons, fromUTF8?_eq_some.mp hid, ih.mp hids]
      · intro h
        cases ids with
        | nil => cases h
        | cons id ids' =>
            rw [List.map_cons] at h
            rcases List.cons.inj h with ⟨hitem, hrest⟩
            exact ⟨id, fromUTF8?_eq_some.mpr hitem, by rw [ih.mpr hrest]; rfl⟩

theorem texts?_eq_none {items : List ByteArray} :
    texts? items = none ↔ ∃ item ∈ items, String.fromUTF8? item = none := by
  induction items with
  | nil => exact ⟨nofun, by rintro ⟨_, hmem, _⟩; cases hmem⟩
  | cons item rest ih =>
      rw [texts?_cons]
      cases hitem : String.fromUTF8? item with
      | none => exact ⟨fun _ => ⟨item, List.mem_cons_self, hitem⟩, fun _ => rfl⟩
      | some id =>
          rw [Option.bind_some, Option.map_eq_none_iff, ih]
          constructor
          · rintro ⟨other, hmem, hother⟩
            exact ⟨other, List.mem_cons_of_mem _ hmem, hother⟩
          · rintro ⟨other, hmem, hother⟩
            rcases List.mem_cons.mp hmem with rfl | hmem
            · rw [hitem] at hother
              cases hother
            · exact ⟨other, hmem, hother⟩

theorem handOut_true (items : List ByteArray) :
    Keyspace.handOut true items = (texts? items).map (List.map Item.text) := by
  unfold Keyspace.handOut
  rw [if_pos rfl]
  induction items with
  | nil => rfl
  | cons item rest ih =>
      rw [texts?_cons, List.mapM_cons, ih]
      cases String.fromUTF8? item with
      | none => rfl
      | some id => cases texts? rest <;> rfl

omit [Seconds τ] in
theorem decodeItems_text (ids : List String) :
    (Queue.decodeItems (ids.map Item.text) : Except (Failure τ) (List String)) = .ok ids := by
  induction ids with
  | nil => rfl
  | cons id rest ih =>
      unfold Queue.decodeItems
      rw [List.map_cons]
      show Except.map _ (Queue.decodeItems (rest.map Item.text)) = _
      rw [ih]
      rfl

omit [Seconds τ] in
theorem decodeItems_bytes (items : List ByteArray) :
    (Queue.decodeItems (items.map Item.bytes) : Except (Failure τ) (List String)) =
      match texts? items with
      | some ids => .ok ids
      | none => .error .undecodable := by
  induction items with
  | nil => rfl
  | cons item rest ih =>
      have hdecode : (Item.bytes item).decode? = String.fromUTF8? item := rfl
      rw [texts?_cons, List.map_cons]
      unfold Queue.decodeItems
      rw [hdecode]
      cases String.fromUTF8? item with
      | none => rfl
      | some id =>
          dsimp only
          rw [ih]
          cases texts? rest <;> rfl

/-- What comes of the removal of items: their texts, or nothing that can be read. -/
def removal (items : List ByteArray) : Except (Failure τ) Outcome :=
  match texts? items with
  | some ids => .ok (.removed ids)
  | none => .error .undecodable

section Removals

variable {keys : Keyspace τ} {key : String} {count : Int} {report : Failure τ → Failure τ}

omit [Seconds τ] in
theorem reading_lpop {items? : Option (List ByteArray)} (hlist : keys.list? key = .ok items?)
    (hcount : 0 ≤ count) (hreport : report .undecodable = .undecodable) (decodes : Bool) :
    (((keys.lpop decodes key count).1.reply).mapError report).bind
        (@Use.reading τ key (.pop count)) = removal ((items?.getD []).take count.toNat) := by
  unfold Keyspace.lpop removal
  rw [hlist]
  dsimp only
  rw [if_neg (Int.not_lt.mpr hcount)]
  cases items? with
  | none =>
      rw [Option.getD_none, List.take_nil]
      rfl
  | some items =>
      dsimp only [Option.getD_some]
      generalize items.take count.toNat = removed
      cases decodes with
      | true =>
          rw [handOut_true]
          cases texts? removed with
          | none => exact congrArg Except.error hreport
          | some ids => exact congrArg (Except.map Outcome.removed) (decodeItems_text ids)
      | false =>
          refine (congrArg (Except.map Outcome.removed) (decodeItems_bytes removed)).trans ?_
          cases texts? removed <;> rfl

end Removals

end Redis
end Turnstile
