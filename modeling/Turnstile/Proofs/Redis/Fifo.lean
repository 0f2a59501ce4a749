import Turnstile.Number.Binary
import Turnstile.Proofs.Redis.Disturbance
import Turnstile.Proofs.Redis.Usage

/-!
# First in, first out

A queue that is kept in a Redis list is a queue of texts: what is appended first is removed first,
and it is removed as the text that was appended.  This is so whatever queue objects are used, and
whatever their clients decode, as long as they share a key, nothing fails and the key does not
lapse.  A key that has lost its last item is gone, and it comes back with the next one.

The invariant is that the list under the key is the encoding of a line of texts, and that there is
no list if the line is empty.  Each use answers what the line says and leaves the encoding of the
line that it should leave.

## Main definitions

* `Use.answered` and `Use.after` - what a use of a line of texts gives, and the line that is left.
* `Keyspace.Stores` - a line is stored under a key.
* `attendAll` - the uses of a queue, one after another.

## Main statements

* `Visit.attended_stored` - a use of a stored line.
* `pushed_eq` - nothing is lost or made up.
* `first_in_first_out` - any number of uses of an empty queue.
-/

namespace Turnstile
namespace Redis

open Rehearsal

variable {τ : Type} [Seconds τ]

/-!
## Lines of texts
-/

namespace Use

/-- What the renewal of an expiry gives.  An empty line has none, and a number of seconds can be too
large to be counted. -/
def renewed (line : List String) (seconds : Int) : Except (Failure τ) Outcome :=
  if line.isEmpty then .ok (.held false)
  else
    match (Seconds.ofSeconds? seconds : Option τ) with
    | none => .error .countTooLarge
    | some _ => .ok (.held true)

def answered (line : List String) : Use → Except (Failure τ) Outcome
  | .push _ => .ok (.length (line.length + 1))
  | .position id => .ok (.rank (line.idxOf? id))
  | .pop count => .ok (.removed (line.take count.toNat))
  | .expire seconds => renewed line seconds
  | .length => .ok (.length line.length)

def after (line : List String) : Use → List String
  | .push id => line ++ [id]
  | .pop count => line.drop count.toNat
  | _ => line

/-- No negative number of heads is removed, and no expiry is in the past. -/
def Proper : Use → Prop
  | .pop count => 0 ≤ count
  | .expire seconds => 1 ≤ seconds
  | _ => True

def pushed : Use → List String
  | .push id => [id]
  | _ => []

end Use

def Outcome.popped : Except (Failure τ) Outcome → List String
  | .ok (.removed ids) => ids
  | _ => []

def followLine : List Use → List String → List (Except (Failure τ) Outcome) × List String
  | [], line => ([], line)
  | use :: rest, line =>
      (use.answered line :: (followLine rest (use.after line)).1,
        (followLine rest (use.after line)).2)

theorem pushed_of_use (line : List String) (use : Use) :
    line ++ use.pushed = Outcome.popped (use.answered line : Except (Failure τ) Outcome) ++
      use.after line := by
  cases use with
  | push id => rfl
  | pop count =>
      show line ++ [] = line.take _ ++ line.drop _
      rw [List.append_nil, List.take_append_drop]
  | expire seconds =>
      show line ++ [] = Outcome.popped (Use.renewed line seconds) ++ line
      unfold Use.renewed
      split
      · exact List.append_nil _
      · split
        · exact List.append_nil _
        · exact List.append_nil _
  | _ => exact List.append_nil _

/-- Everything that was in the line or was appended is handed out or left, in that order. -/
theorem pushed_eq (uses : List Use) (line : List String) :
    line ++ uses.flatMap Use.pushed =
      (followLine uses line : List (Except (Failure τ) Outcome) × _).1.flatMap Outcome.popped ++
        (followLine uses line : List (Except (Failure τ) Outcome) × _).2 := by
  induction uses generalizing line with
  | nil => exact List.append_nil _
  | cons use rest ih =>
      show line ++ (use.pushed ++ rest.flatMap Use.pushed) =
        (Outcome.popped _ ++ List.flatMap Outcome.popped _) ++ _
      rw [← List.append_assoc, @pushed_of_use τ, List.append_assoc, ih, List.append_assoc]
      rfl

/-!
## Stored lines
-/

namespace Keyspace

/-- A line of texts is stored under a key.  There is no list if the line is empty. -/
structure Stores (keys : Keyspace τ) (key : String) (line : List String) : Prop where
  isList : key ∉ keys.others
  get : keys.lists.get? key = if line.isEmpty then none else some (line.map String.toUTF8)

variable {keys : Keyspace τ} {key : String} {line : List String}

omit [Seconds τ] in
theorem stores_of_absent (h : keys.holds key = false) : keys.Stores key [] := by
  unfold holds at h
  rw [Bool.or_eq_false_iff] at h
  constructor
  · intro hmem
    rw [List.contains_iff_mem.mpr hmem] at h
    cases h.1
  · exact Option.isSome_eq_false_iff.mp h.2 |> Option.isNone_iff_eq_none.mp

omit [Seconds τ] in
theorem stores_setItems (hlist : key ∉ keys.others) (line : List String) :
    (keys.setItems key (line.map String.toUTF8)).Stores key line := by
  refine ⟨not_mem_others_setItems hlist _, ?_⟩
  unfold setItems
  cases line with
  | nil => simp only [List.map_nil, List.isEmpty_nil, if_true, drop, Table.get?_drop]
  | cons head rest =>
      show Table.get? (Table.put keys.lists key _) key = _
      rw [Table.get?_put, if_pos rfl]
      rfl

namespace Stores

omit [Seconds τ] in
theorem lists (h : keys.Stores key line) : keys.Lists key (line.map String.toUTF8) := by
  refine ⟨h.isList, ?_⟩
  unfold items
  rw [h.get]
  cases line with
  | nil => rfl
  | cons head rest => rfl

theorem purge (h : keys.Stores key line) {now : τ} (hlapsed : keys.hasLapsed now key = false) :
    (keys.purge now).Stores key line := by
  constructor
  · intro hmem
    exact h.isList (List.mem_filter.mp hmem).1
  · show Table.get? (keys.lists.filter fun pair => !keys.hasLapsed now pair.1) key = _
    rw [get?_filter_key (fun name => !keys.hasLapsed now name), hlapsed]
    exact h.get

omit [Seconds τ] in
theorem rpush (h : keys.Stores key line) (id : String) :
    (keys.rpush key id).2.Stores key (line ++ [id]) := by
  have hpushed : (keys.rpush key id).2 =
      keys.setItems key ((line ++ [id]).map String.toUTF8) := by
    unfold Keyspace.rpush
    rw [h.lists.list?]
    dsimp only
    rw [h.lists.getD, List.map_append]
    rfl
  rw [hpushed]
  exact stores_setItems h.isList _

omit [Seconds τ] in
theorem lpop (h : keys.Stores key line) {count : Int} (hcount : 0 ≤ count) (decodes : Bool) :
    (keys.lpop decodes key count).2.Stores key (line.drop count.toNat) := by
  unfold Keyspace.lpop
  rw [h.lists.list?]
  dsimp only
  rw [if_neg (Int.not_lt.mpr hcount), h.get]
  cases line with
  | nil =>
      rw [List.drop_nil]
      exact h
  | cons head rest =>
      show (keys.setItems key (((head :: rest).map String.toUTF8).drop count.toNat)).Stores _ _
      rw [← List.map_drop]
      exact stores_setItems h.isList _

omit [Seconds τ] in
theorem holds (h : keys.Stores key line) : keys.holds key = !line.isEmpty := by
  have hlist : keys.others.contains key = false := by
    rw [Bool.eq_false_iff]
    exact fun hmem => h.isList (List.contains_iff_mem.mp hmem)
  unfold Keyspace.holds
  rw [hlist, Bool.false_or, h.get]
  cases line with
  | nil => rfl
  | cons head rest => rfl

theorem expire (h : keys.Stores key line) {seconds : Int} (hseconds : 1 ≤ seconds)
    {report : Failure τ → Failure τ} (hreport : report .countTooLarge = .countTooLarge) (now : τ) :
    ((keys.expire now key seconds).1.reply.mapError report).map Outcome.held =
        Use.renewed line seconds ∧
      (keys.expire now key seconds).2.Stores key line := by
  unfold Keyspace.expire Use.renewed
  rw [h.holds, Bool.not_not]
  cases line.isEmpty with
  | true => exact ⟨rfl, h⟩
  | false =>
      rw [if_neg Bool.false_ne_true, if_neg Bool.false_ne_true, if_neg (by omega)]
      cases (Seconds.ofSeconds? seconds : Option τ) with
      | none => exact ⟨congrArg Except.error hreport, h⟩
      | some duration => exact ⟨rfl, h.isList, h.get⟩

end Stores
end Keyspace

/-!
## Uses of a stored line
-/

variable {key : String} {line : List String} {visit : Visit τ} {server : Server τ}

structure Calm (server : Server τ) : Prop where
  faultless : server.faults = []
  up : server.down = false

omit [Seconds τ] in
theorem Calm.arrives (h : Calm server) (visit : Visit τ) : visit.Arrives server := by
  refine ⟨?_, h.up⟩
  rw [h.faultless]
  rfl

theorem Calm.response (h : Calm server) (visit : Visit τ) : Calm (visit.response server).2 := by
  rcases server with ⟨keys, arguments, decodes, down, shown, faults, latency, replyLatency, received⟩
  rcases h with ⟨hfaultless, hup⟩
  cases hfaultless
  cases hup
  exact ⟨rfl, rfl⟩

/-- The command of a use gives what the line says, and leaves the line stored that it should. -/
theorem Keyspace.Stores.run {keys : Keyspace τ} (h : keys.Stores key line) {use : Use}
    (hproper : use.Proper) (label : String) (decodes : Bool) (time : τ) :
    (((keys.run decodes time (use.command key)).1.reply.mapError
        (asStoreFailure label (use.command key).verb.name key)).bind use.reading =
      use.answered line) ∧
    (keys.run decodes time (use.command key)).2.Stores key (use.after line) := by
  cases use with
  | push id =>
      refine ⟨?_, h.rpush id⟩
      show (Except.mapError _ (keys.rpush key id).1.reply).bind _ = _
      rw [h.lists.rpush_reply, List.length_map]
      rfl
  | position id =>
      refine ⟨?_, h⟩
      show (Except.mapError _ (keys.lpos key id).reply).bind _ = _
      rw [h.lists.lpos_reply, idxOf?_map_toUTF8]
      rfl
  | pop count =>
      refine ⟨?_, h.lpop hproper decodes⟩
      have htexts : texts? ((line.map String.toUTF8).take count.toNat) =
          some (line.take count.toNat) := by
        rw [texts?_eq_some, List.map_take]
      refine (reading_lpop h.lists.list? hproper rfl decodes).trans ?_
      rw [h.lists.getD]
      unfold removal
      rw [htexts]
      rfl
  | expire seconds => exact h.expire hproper rfl time
  | length =>
      refine ⟨?_, h⟩
      show (Except.mapError _ (keys.llen key).reply).bind _ = _
      rw [h.lists.llen_reply, List.length_map]
      rfl

theorem Visit.attended_stored (hcalm : Calm server) (hstores : server.keys.Stores key line)
    (hkey : visit.queue.key = key) (hproper : visit.use.Proper)
    (hlapsed : server.keys.hasLapsed visit.time key = false) :
    visit.attended server = some (visit.use.answered line, (visit.response server).2) ∧
      Calm (visit.response server).2 ∧
      (visit.response server).2.keys.Stores key (visit.use.after line) := by
  subst hkey
  rcases (hcalm.arrives visit).response with ⟨hresponse, hkeys⟩
  rcases (hstores.purge hlapsed).run hproper visit.queue.label visit.decodes visit.time with
    ⟨hanswered, hafter⟩
  refine ⟨?_, hcalm.response visit, ?_⟩
  · rw [attended_eq, hresponse]
    exact congrArg (fun ended => some (ended, _)) hanswered
  · rw [hkeys]
    exact hafter

/-!
## Any number of uses
-/

def attendAll : List (Visit τ) → Server τ →
    Option (List (Except (Failure τ) Outcome) × Server τ)
  | [], server => some ([], server)
  | visit :: rest, server => do
      let (outcome, server) ← visit.attended server
      let (outcomes, server) ← attendAll rest server
      some (outcome :: outcomes, server)

/-- No visit finds that the key has lapsed. -/
def InTime (key : String) : List (Visit τ) → Server τ → Prop
  | [], _ => True
  | visit :: rest, server =>
      server.keys.hasLapsed visit.time key = false ∧ InTime key rest (visit.response server).2

def Orderly (key : String) (visits : List (Visit τ)) : Prop :=
  ∀ visit ∈ visits, visit.queue.key = key ∧ visit.use.Proper

theorem attendAll_stored {visits : List (Visit τ)} (hcalm : Calm server)
    (hstores : server.keys.Stores key line) (horderly : Orderly key visits)
    (hintime : InTime key visits server) :
    ∃ server', attendAll visits server =
        some ((followLine (visits.map Visit.use) line).1, server') ∧
      server'.keys.Stores key
        (followLine (visits.map Visit.use) line : List (Except (Failure τ) Outcome) × _).2 := by
  induction visits generalizing server line with
  | nil => exact ⟨server, rfl, hstores⟩
  | cons visit rest ih =>
      rcases horderly visit List.mem_cons_self with ⟨hkey, hproper⟩
      rcases visit.attended_stored hcalm hstores hkey hproper hintime.1 with
        ⟨hattended, hcalm', hstores'⟩
      rcases ih hcalm' hstores' (fun other hmem => horderly other (List.mem_cons_of_mem _ hmem))
        hintime.2 with ⟨server', hrest, hfinal⟩
      refine ⟨server', ?_, hfinal⟩
      unfold attendAll
      rw [hattended]
      show (attendAll rest _).bind _ = _
      rw [hrest]
      rfl

/-- A key holds nothing, and from then on it is used as a queue, any number of times, by any queue
objects, over clients that decode or not.  Every use comes to its end, and gives what it should give
of a line of texts that is empty at first.  What is left of the line is stored under the key.  What
was removed, in that order, and what is left make up what was appended. -/
theorem first_in_first_out {visits : List (Visit τ)} (hcalm : Calm server)
    (habsent : server.keys.holds key = false) (horderly : Orderly key visits)
    (hintime : InTime key visits server) :
    ∃ outcomes line server', attendAll visits server = some (outcomes, server') ∧
      followLine (visits.map Visit.use) [] = (outcomes, line) ∧
      server'.keys.Stores key line ∧
      outcomes.flatMap Outcome.popped ++ line = (visits.map Visit.use).flatMap Use.pushed := by
  rcases attendAll_stored hcalm (Keyspace.stores_of_absent habsent) horderly hintime with
    ⟨server', hattended, hstores⟩
  exact ⟨_, _, server', hattended, rfl, hstores, (pushed_eq _ []).symm⟩

instance decidableProper : (use : Use) → Decidable use.Proper
  | .push _ => inferInstanceAs (Decidable True)
  | .position _ => inferInstanceAs (Decidable True)
  | .pop count => inferInstanceAs (Decidable (0 ≤ count))
  | .expire seconds => inferInstanceAs (Decidable (1 ≤ seconds))
  | .length => inferInstanceAs (Decidable True)

instance decidableInTime (key : String) :
    (visits : List (Visit τ)) → (server : Server τ) → Decidable (InTime key visits server)
  | [], _ => inferInstanceAs (Decidable True)
  | visit :: rest, server =>
      have := decidableInTime key rest (visit.response server).2
      inferInstanceAs (Decidable (_ ∧ _))

/-- One of two objects for the same queue, of which one decodes and the other does not. -/
def atCounter (decodes : Bool) (time : Float) (use : Use) : Visit Float :=
  ⟨⟨⟨if decodes then 1 else 0, defaultEndpoint, {}⟩, "counter", true⟩, decodes, time, use⟩

def counterDay : List (Visit Float) :=
  [atCounter false 1 (.push "a"), atCounter true 2 (.push "ö"), atCounter true 3 (.push "a"),
    atCounter false 4 (.expire 30), atCounter true 5 (.position "a"), atCounter true 6 (.pop 2),
    atCounter false 7 (.pop 5), atCounter true 8 (.pop 1), atCounter false 9 (.expire 30),
    atCounter false 10 (.push "b"), atCounter true 11 (.position "a"), atCounter false 12 .length]

theorem first_in_first_out_at_counter : ∃ outcomes line server',
    attendAll counterDay {} = some (outcomes, server') ∧
    outcomes.flatMap Outcome.popped = ["a", "ö", "a"] ∧ line = ["b"] ∧
    server'.keys.Stores "counter" line ∧
    outcomes.flatMap Outcome.popped ++ line = ["a", "ö", "a", "b"] := by
  have horderly : Orderly "counter" counterDay := by
    unfold Orderly
    decide
  have hintime : InTime "counter" counterDay {} := by decide +kernel
  rcases first_in_first_out ⟨rfl, rfl⟩ rfl horderly hintime with
    ⟨outcomes, line, server', hattended, hline, hstores, hpushed⟩
  rcases Prod.mk.inj hline with ⟨rfl, rfl⟩
  exact ⟨_, _, server', hattended, rfl, rfl, hstores, hpushed⟩

end Redis
end Turnstile
