import Turnstile.Redis.Client
import Turnstile.Table

/-!
# What a Redis server keeps

A server keeps lists of items under keys.  There is no empty list: a key goes together with its
last item.  Keys that hold something else are known by name only, and whatever is kept under such
a key is closed to the commands for lists.

A key can have a deadline.  Deadlines are kept apart from the lists, so that one may be known
before its key holds anything; it goes when the key goes.

## Main definitions

* `Keyspace.run` - the effect of each command and what the client makes of it.
* `Keyspace.purge` - removes the keys whose deadline has come.
-/

namespace Turnstile
namespace Redis

/-- The keys of a server: the lists, the names of keys that hold something else, and the points in
time at which keys are removed. -/
structure Keyspace (τ : Type) where
  lists : Table (List ByteArray) := []
  others : List String := []
  deadlines : Table τ := []

namespace Keyspace

variable {τ : Type} [Seconds τ]

def hasLapsed (now : τ) (keys : Keyspace τ) (key : String) : Bool :=
  match keys.deadlines.get? key with
  | none => false
  | some deadline => decide (deadline ≤ now)

def purge (now : τ) (keys : Keyspace τ) : Keyspace τ where
  lists := keys.lists.filter fun (key, _) => !keys.hasLapsed now key
  others := keys.others.filter fun key => !keys.hasLapsed now key
  deadlines := keys.deadlines.filter fun (key, _) => !keys.hasLapsed now key

def drop (keys : Keyspace τ) (key : String) : Keyspace τ where
  lists := keys.lists.drop key
  others := keys.others.filter (· != key)
  deadlines := keys.deadlines.drop key

def setOther (keys : Keyspace τ) (key : String) : Keyspace τ :=
  { keys with others := keys.others ++ [key] }

def setDeadline (keys : Keyspace τ) (key : String) (deadline : τ) : Keyspace τ :=
  { keys with deadlines := keys.deadlines.put key deadline }

/-- The items under a key, none if there is no list. -/
def items (keys : Keyspace τ) (key : String) : List ByteArray :=
  (keys.lists.get? key).getD []

/-- Replaces the items under a key.  A key without items is removed. -/
def setItems (keys : Keyspace τ) (key : String) (items : List ByteArray) : Keyspace τ :=
  if items.isEmpty then keys.drop key else { keys with lists := keys.lists.put key items }

def holds (keys : Keyspace τ) (key : String) : Bool :=
  keys.others.contains key || (keys.lists.get? key).isSome

/-- The items under a key that holds a list or nothing. -/
def list? (keys : Keyspace τ) (key : String) : Except ClientError (Option (List ByteArray)) :=
  if keys.others.contains key then .error .wrongType else .ok (keys.lists.get? key)

/-- Items as they are handed out: as bytes, or as text if the client decodes.  A client that
decodes cannot read any of them if one is not well-formed text. -/
def handOut (decodes : Bool) (items : List ByteArray) : Option (List Item) :=
  if decodes then items.mapM fun item => (String.fromUTF8? item).map .text
  else some (items.map .bytes)

def rpush (keys : Keyspace τ) (key id : String) : Response τ Nat × Keyspace τ :=
  match keys.list? key with
  | .error e => (.refuse e, keys)
  | .ok items? =>
      let items := items?.getD [] ++ [id.toUTF8]
      (.read (.ok items.length), keys.setItems key items)

/-- The rank of the first item with the bytes of a text. -/
def lpos (keys : Keyspace τ) (key id : String) : Response τ (Option Nat) :=
  match keys.list? key with
  | .error e => .refuse e
  | .ok items? => .read (.ok ((items?.getD []).idxOf? id.toUTF8))

/-- Removes up to `count` items from the head of a list.  They are gone even if the client cannot
read them. -/
def lpop (decodes : Bool) (keys : Keyspace τ) (key : String) (count : Int) :
    Response τ (Option (List Item)) × Keyspace τ :=
  match keys.list? key with
  | .error e => (.refuse e, keys)
  | .ok items? =>
      if count < 0 then (.refuse .negativeCount, keys)
      else
        match items? with
        | none => (.read (.ok none), keys)
        | some items =>
            let response : Response τ (Option (List Item)) :=
              match handOut decodes (items.take count.toNat) with
              | none => .unread .undecodable
              | some handed => .read (.ok (some handed))
            (response, keys.setItems key (items.drop count.toNat))

/-- Gives a key the number of seconds to live.  None or fewer remove it, and too many to be
counted change nothing. -/
def expire (now : τ) (keys : Keyspace τ) (key : String) (seconds : Int) :
    Response τ Bool × Keyspace τ :=
  if !keys.holds key then (.read (.ok false), keys)
  else if seconds ≤ 0 then (.read (.ok true), keys.drop key)
  else
    match Seconds.ofSeconds? seconds with
    | none => (.unread .countTooLarge, keys)
    | some duration => (.read (.ok true), keys.setDeadline key (now + duration))

def llen (keys : Keyspace τ) (key : String) : Response τ Nat :=
  match keys.list? key with
  | .error e => .refuse e
  | .ok items? => .read (.ok (items?.getD []).length)

def run (decodes : Bool) (now : τ) (keys : Keyspace τ) :
    (command : Command) → Response τ command.Reply × Keyspace τ
  | .ping => (.read (.ok ()), keys)
  | .rpush key id => keys.rpush key id
  | .lpos key id => (keys.lpos key id, keys)
  | .lpop key count => keys.lpop decodes key count
  | .expire key seconds => keys.expire now key seconds
  | .llen key => (keys.llen key, keys)

end Keyspace
end Redis
end Turnstile
