import Mathlib.Data.List.Nodup
import Turnstile.Proofs.Crowd.Schedule
import Turnstile.Proofs.Stake

/-!
# Refused requests for a slot

A request for a slot that is refused gives back an entry, and the entry that it gives back is the
head of the queue, not its own.  Everybody else moves up by one, although no slot was given back.
If somebody waited, the first of those who did is now at a rank below capacity, and its next look
lets it in beside all who hold a slot.

## Main statements

* `Scene.leaves` - what a request leaves in the queue, for each stake it may end with.
* `Scene.refused_lets_in_iff` - a refused request lets in a waiter if its entry was made and
  somebody waited, and not otherwise.
-/

namespace Turnstile

open Redis

variable {τ : Type} [Seconds τ]

/-- A look at the queue under a key finds an identity at a rank below `capacity`. -/
def Redis.Keyspace.LetsIn (keys : Keyspace τ) (key : String) (capacity : Int) (id : String) :
    Prop :=
  ∃ rank : Nat, (keys.lpos key id).reply = .ok (some rank) ∧ (rank : Int) < capacity

theorem Semaphore.one_le_capacity (semaphore : Semaphore τ) : 1 ≤ semaphore.capacity := by
  by_cases hcapacity : semaphore.capacity < 1
  · have hsound := semaphore.sound
    unfold SemaphoreForm.defect? at hsound
    rw [if_pos hcapacity] at hsound
    split at hsound <;> cases hsound
  · omega

/-- A server, and a request for a slot that has its queue to itself. -/
structure Scene (τ : Type) [Seconds τ] where
  keys : Keyspace τ
  stake : Stake
  plan : Plan (Premises τ) τ (Except (Failure τ) Unit)

namespace Stake

/-- Whether a request can be interrupted while it waits for a command.  It cannot once it cleans
up. -/
def Interruptible (φ : Stake) : Command → Prop
  | .ping => ∃ id, φ = .named id
  | .rpush .. => True
  | .lpos .. => True
  | _ => False

def Told : Stake → Prop
  | .entered _ | .repaid _ => True
  | _ => False

def Leaves (line : List String) : Stake → List String → Prop
  | .unnamed, rest | .named _, rest => rest = line
  | .unsure id, rest => rest = line ∨ rest = line ++ [id]
  | .entered id, rest => rest = line ++ [id]
  | .repaid id, rest => rest = (line ++ [id]).tail

end Stake

namespace Scene

def opening (user : User τ) (limit : Option τ) (keys : Keyspace τ) : Scene τ :=
  ⟨keys, .unnamed, onPremises (user.acquire limit)⟩

/-- The answers that the request may be given, and what becomes of the server.  The surroundings
may answer anything.  Commands do not fail, but the request may be interrupted while it waits for
one, whether or not that takes effect. -/
inductive Answers (scene : Scene τ) :
    (r : (Premises τ).Request) → (Premises τ).Answer r → Keyspace τ → Prop where
  | dial (endpoint : String) (client : Client) :
      Answers scene (.inl (.dial endpoint)) client scene.keys
  | hangUp (client : Client) : Answers scene (.inl (.hangUp client)) () scene.keys
  | call (client : Client) {command : Command} {took : Bool}
      {reply : Except (Failure τ) command.Reply} {keys : Keyspace τ}
      (executed : Keyspace.Executed
        (fun e => e = .interrupted ∧ scene.stake.Interruptible command) scene.keys command took
        reply keys) :
      Answers scene (.inl (.call client command)) reply keys
  | ambient (r : AmbientRequest τ) (answer : r.Answer τ) :
      Answers scene (.inr r) answer scene.keys

inductive Step (scene : Scene τ) : Scene τ → Prop where
  | turn {plan : Plan (Premises τ) τ (Except (Failure τ) Unit)}
      (turns : Plan.Turns True scene.plan plan) : Step scene { scene with plan := plan }
  | hears {r : (Premises τ).Request} {answer : (Premises τ).Answer r} {keys : Keyspace τ}
      {plan : Plan (Premises τ) τ (Except (Failure τ) Unit)}
      (asks : scene.plan.Asks r answer plan) (answers : Answers scene r answer keys) :
      Step scene ⟨keys, scene.stake.after r answer, plan⟩

abbrev Leads : Scene τ → Scene τ → Prop :=
  Relation.ReflTransGen Step

/-!
## What a request leaves
-/

/-- What holds of a request on a queue that held `line` at first. -/
structure Fair (user : User τ) (line : List String) (scene : Scene τ) : Prop where
  meets : scene.plan.Meets (Stake.terms user.semaphore.queueKey) scene.stake
    (Action.Ends (fun _ _ => True) fun φ e => e.Refuses user.mode → ∀ id, φ ≠ .entered id)
  leaves : ∃ rest, scene.stake.Leaves line rest ∧
    scene.keys.Lists user.semaphore.queueKey (rest.map String.toUTF8)

variable {user : User τ} {limit : Option τ} {keys : Keyspace τ} {line : List String}
  {scene scene' : Scene τ}

theorem opening_meets :
    (opening user limit keys).plan.Meets (Stake.terms user.semaphore.queueKey) .unnamed
      (Action.Ends (fun _ _ => True) fun φ e => e.Refuses user.mode → ∀ id, φ ≠ .entered id) := by
  unfold Scene.opening User.acquire
  cases user with
  | mk mode semaphore held =>
      cases mode with
      | blocking => exact Blocking.acquire_repays
      | cooperative => exact Cooperative.acquire_repays

theorem Fair.opening (hlists : keys.Lists user.semaphore.queueKey (line.map String.toUTF8)) :
    (opening user limit keys).Fair user line :=
  ⟨opening_meets, line, rfl, hlists⟩

theorem Answers.expects {r : (Premises τ).Request} {answer : (Premises τ).Answer r}
    (h : Answers scene r answer keys) : scene.stake.expects r answer := by
  cases h with
  | dial endpoint client => trivial
  | hangUp client => trivial
  | ambient r answer => trivial
  | @call client command took reply keys executed =>
      constructor
      · intro e he
        rcases executed.of_error he with hordinary | hfault
        · exact Or.inl hordinary
        · exact Or.inr hfault.1
      · intro hping hhasEntered e he
        subst hping
        rcases hhasEntered with ⟨id, hentered⟩
        have hnamed : ¬ ∃ id', scene.stake = .named id' := by
          intro hnamed
          rcases hnamed with ⟨id', hnamed⟩
          rw [hentered] at hnamed
          cases hnamed
        cases executed with
        | answered decodes time => cases he
        | refused fault => exact hnamed fault.2
        | lost fault decodes time => exact hnamed fault.2

theorem leaves_of_executed {client : Client} {command : Command} {took : Bool}
    {reply : Except (Failure τ) command.Reply} {key : String} {rest : List String}
    (h : Keyspace.Executed (fun e => e = .interrupted ∧ scene.stake.Interruptible command)
      scene.keys command took reply keys)
    (hallows : scene.stake.allows key (.inl (.call client command) : (Premises τ).Request))
    (hleaves : scene.stake.Leaves line rest)
    (hlists : scene.keys.Lists key (rest.map String.toUTF8)) :
    ∃ rest', (scene.stake.after (.inl (.call client command)) reply).Leaves line rest' ∧
      keys.Lists key (rest'.map String.toUTF8) := by
  cases command with
  | ping => exact ⟨rest, hleaves, h.lists_same hlists trivial rfl⟩
  | lpos key' id => exact ⟨rest, hleaves, h.lists_same hlists hallows rfl⟩
  | expire key' seconds => exact ⟨rest, hleaves, h.lists_same hlists hallows rfl⟩
  | llen key' => exact hallows.elim
  | rpush key' id =>
      rcases hallows with ⟨rfl, hnamed⟩
      rw [hnamed] at hleaves
      cases hleaves
      have hpushed : ∀ decodes time,
          (scene.keys.run decodes time (.rpush key' id)).2.Lists key'
            ((line ++ [id]).map String.toUTF8) := by
        intro decodes time
        rw [List.map_append]
        exact hlists.rpush id
      cases h with
      | answered decodes time =>
          have hreply : (scene.keys.run decodes time (.rpush key' id)).1.reply =
              .ok ((line.map String.toUTF8).length + 1) := hlists.rpush_reply id
          rw [hreply]
          exact ⟨line ++ [id], rfl, hpushed decodes time⟩
      | refused fault => exact ⟨line, Or.inl rfl, hlists⟩
      | lost fault decodes time => exact ⟨line ++ [id], Or.inr rfl, hpushed decodes time⟩
  | lpop key' count =>
      rcases hallows with ⟨rfl, rfl, id, hentered⟩
      rw [hentered] at hleaves
      cases hleaves
      show ∃ rest', scene.stake.repay.Leaves line rest' ∧ _
      rw [hentered]
      cases h with
      | answered decodes time =>
          refine ⟨(line ++ [id]).tail, rfl, ?_⟩
          rw [List.map_tail]
          exact hlists.lpop decodes
      | refused fault => exact fault.2.elim
      | lost fault decodes time => exact fault.2.elim

theorem Answers.leaves {r : (Premises τ).Request} {answer : (Premises τ).Answer r} {key : String}
    {rest : List String} (h : Answers scene r answer keys) (hallows : scene.stake.allows key r)
    (hleaves : scene.stake.Leaves line rest)
    (hlists : scene.keys.Lists key (rest.map String.toUTF8)) :
    ∃ rest', (scene.stake.after r answer).Leaves line rest' ∧
      keys.Lists key (rest'.map String.toUTF8) := by
  cases h with
  | dial endpoint client => exact ⟨rest, hleaves, hlists⟩
  | hangUp client => exact ⟨rest, hleaves, hlists⟩
  | call client executed => exact leaves_of_executed executed hallows hleaves hlists
  | ambient r answer =>
      cases r with
      | freshId =>
          rw [show scene.stake = .unnamed from hallows] at hleaves
          exact ⟨rest, hleaves, hlists⟩
      | _ => exact ⟨rest, hleaves, hlists⟩

theorem Fair.step (h : scene.Fair user line) (hstep : Step scene scene') :
    scene'.Fair user line := by
  cases hstep with
  | turn turns => exact ⟨h.meets.turns turns, h.leaves⟩
  | hears asks answers =>
      have hasks := h.meets.asks asks
      rcases h.leaves with ⟨rest, hleaves, hlists⟩
      constructor
      · exact hasks.2 _ answers.expects rfl
      · exact answers.leaves hasks.1 hleaves hlists

theorem Fair.leads (h : scene.Fair user line) (hleads : Leads scene scene') :
    scene'.Fair user line := by
  induction hleads with
  | refl => exact h
  | tail _ hstep ih => exact ih.step hstep

/-!
## Who is let in
-/

omit [Seconds τ] in
theorem letsIn_iff {key : String} {capacity : Int} {rest : List String}
    (hlists : keys.Lists key (rest.map String.toUTF8)) (id : String) :
    keys.LetsIn key capacity id ↔ id ∈ rest ∧ (rest.idxOf id : Int) < capacity := by
  unfold Keyspace.LetsIn
  rw [hlists.lpos_reply, idxOf?_map_toUTF8]
  constructor
  · intro h
    rcases h with ⟨rank, hreply, hlt⟩
    have hrank : rest.idxOf? id = some rank := Except.ok.inj hreply
    have hmem : id ∈ rest := by
      rw [← List.isSome_idxOf?, hrank]
      rfl
    rw [List.idxOf_eq_getD_idxOf?, hrank]
    exact ⟨hmem, hlt⟩
  · intro h
    rcases Option.isSome_iff_exists.mp (List.isSome_idxOf?.mpr h.1) with ⟨rank, hrank⟩
    have hlt := h.2
    rw [List.idxOf_eq_getD_idxOf?, hrank] at hlt
    exact ⟨rank, congrArg Except.ok hrank, hlt⟩

theorem idxOf_repaid {id : String} (other : String) (hid : id ∈ line)
    (hbehind : 1 ≤ line.idxOf id) :
    id ∈ (line ++ [other]).tail ∧ (line ++ [other]).tail.idxOf id + 1 = line.idxOf id := by
  cases line with
  | nil => cases hid
  | cons head rest =>
      have hhead : head ≠ id := by
        intro heq
        rw [List.idxOf_cons_eq rest heq] at hbehind
        cases hbehind
      have hrest : id ∈ rest := by
        rcases List.mem_cons.mp hid with heq | hmem
        · exact absurd heq.symm hhead
        · exact hmem
      constructor
      · exact List.mem_append_left _ hrest
      · show (rest ++ [other]).idxOf id + 1 = _
        rw [List.idxOf_append_of_mem hrest, List.idxOf_cons_ne rest hhead]

theorem Fair.letsIn_of_untold (h : scene.Fair user line) (htold : ¬ scene.stake.Told)
    (hlists : keys.Lists user.semaphore.queueKey (line.map String.toUTF8)) {id : String}
    {capacity : Int} (hid : id ∈ line) :
    scene.keys.LetsIn user.semaphore.queueKey capacity id ↔
      keys.LetsIn user.semaphore.queueKey capacity id := by
  rcases h.leaves with ⟨rest, hleaves, hrest⟩
  have hsame : id ∈ rest ∧ rest.idxOf id = line.idxOf id := by
    have happended : ∀ other, id ∈ line ++ [other] ∧
        (line ++ [other]).idxOf id = line.idxOf id := by
      intro other
      exact ⟨List.mem_append_left _ hid, List.idxOf_append_of_mem hid⟩
    cases hstake : scene.stake with
    | unnamed =>
        rw [hstake] at hleaves
        cases hleaves
        exact ⟨hid, rfl⟩
    | named other =>
        rw [hstake] at hleaves
        cases hleaves
        exact ⟨hid, rfl⟩
    | unsure other =>
        rw [hstake] at hleaves
        cases hleaves with
        | inl hline =>
            rw [hline]
            exact ⟨hid, rfl⟩
        | inr hline =>
            rw [hline]
            exact happended other
    | entered other =>
        rw [hstake] at htold
        exact absurd trivial htold
    | repaid other =>
        rw [hstake] at htold
        exact absurd trivial htold
  rw [letsIn_iff hrest, letsIn_iff hlists, hsame.2]
  exact and_congr_left fun _ => ⟨fun _ => hid, fun _ => hsame.1⟩

/-- When a head was given back, the first of those who wait is let in. -/
theorem Fair.letsIn_of_repaid (h : scene.Fair user line) {other : String}
    (hrepaid : scene.stake = .repaid other)
    (hlists : keys.Lists user.semaphore.queueKey (line.map String.toUTF8)) {id : String}
    {capacity : Int} (hcapacity : 1 ≤ capacity) (hid : id ∈ line)
    (hwaits : ¬ keys.LetsIn user.semaphore.queueKey capacity id) :
    scene.keys.LetsIn user.semaphore.queueKey capacity id ↔ (line.idxOf id : Int) = capacity := by
  rcases h.leaves with ⟨rest, hleaves, hrest⟩
  rw [hrepaid] at hleaves
  cases hleaves
  have hrank : capacity ≤ (line.idxOf id : Int) := by
    rw [letsIn_iff hlists] at hwaits
    have hnot := not_and.mp hwaits hid
    omega
  rcases idxOf_repaid other hid (by omega) with ⟨hmem, hindex⟩
  rw [letsIn_iff hrest]
  constructor
  · intro hlet
    have hlt := hlet.2
    omega
  · intro hfirst
    refine ⟨hmem, ?_⟩
    omega

theorem Fair.repaid_of_told (h : scene.Fair user line) {e : Failure τ}
    (hended : scene.plan = .pure (.error e)) (hrefused : e.Refuses user.mode)
    (htold : scene.stake.Told) : ∃ other, scene.stake = .repaid other := by
  have hmeets := h.meets
  rw [hended] at hmeets
  have hentered : ∀ id, scene.stake ≠ .entered id := hmeets hrefused
  cases hstake : scene.stake with
  | repaid other => exact ⟨other, rfl⟩
  | entered id => exact absurd hstake (hentered id)
  | unnamed =>
      rw [hstake] at htold
      exact htold.elim
  | named id =>
      rw [hstake] at htold
      exact htold.elim
  | unsure id =>
      rw [hstake] at htold
      exact htold.elim

/-- A request for a slot that is refused lets in the first of those who wait, if it was told of its
own entry.  So it lets in somebody just when it was told of it and somebody waits. -/
theorem refused_lets_in_iff {e : Failure τ}
    (hlists : keys.Lists user.semaphore.queueKey (line.map String.toUTF8)) (hnodup : line.Nodup)
    (hleads : Leads (opening user limit keys) scene) (hended : scene.plan = .pure (.error e))
    (hrefused : e.Refuses user.mode) :
    (∀ id ∈ line, ¬ keys.LetsIn user.semaphore.queueKey user.semaphore.capacity id →
        (scene.keys.LetsIn user.semaphore.queueKey user.semaphore.capacity id ↔
          scene.stake.Told ∧ (line.idxOf id : Int) = user.semaphore.capacity)) ∧
      ((∃ id ∈ line, ¬ keys.LetsIn user.semaphore.queueKey user.semaphore.capacity id ∧
          scene.keys.LetsIn user.semaphore.queueKey user.semaphore.capacity id) ↔
        scene.stake.Told ∧ user.semaphore.capacity < line.length) := by
  have hfair : scene.Fair user line := (Fair.opening hlists).leads hleads
  have hcapacity := user.semaphore.one_le_capacity
  have hpointwise : ∀ id ∈ line,
      ¬ keys.LetsIn user.semaphore.queueKey user.semaphore.capacity id →
        (scene.keys.LetsIn user.semaphore.queueKey user.semaphore.capacity id ↔
          scene.stake.Told ∧ (line.idxOf id : Int) = user.semaphore.capacity) := by
    intro id hid hwaits
    by_cases htold : scene.stake.Told
    · rcases hfair.repaid_of_told hended hrefused htold with ⟨other, hrepaid⟩
      rw [hfair.letsIn_of_repaid hrepaid hlists hcapacity hid hwaits]
      exact ⟨fun hfirst => ⟨htold, hfirst⟩, fun h => h.2⟩
    · rw [hfair.letsIn_of_untold htold hlists hid]
      exact ⟨fun hlet => absurd hlet hwaits, fun h => absurd h.1 htold⟩
  refine ⟨hpointwise, ?_⟩
  constructor
  · intro h
    rcases h with ⟨id, hid, hwaits, hlet⟩
    rcases (hpointwise id hid hwaits).mp hlet with ⟨htold, hfirst⟩
    have hlt := List.idxOf_lt_length_of_mem hid
    exact ⟨htold, by omega⟩
  · intro h
    rcases h with ⟨htold, hwaiters⟩
    -- The first of those who wait is the one at the rank `capacity`.
    have hlt : user.semaphore.capacity.toNat < line.length := by omega
    have hfirst : ∃ id ∈ line, line.idxOf id = user.semaphore.capacity.toNat :=
      ⟨line.get ⟨_, hlt⟩, List.getElem_mem hlt, hnodup.idxOf_getElem _ hlt⟩
    rcases hfirst with ⟨id, hid, hindex⟩
    have hwaits : ¬ keys.LetsIn user.semaphore.queueKey user.semaphore.capacity id := by
      rw [letsIn_iff hlists, hindex]
      intro hlet
      omega
    refine ⟨id, hid, hwaits, ?_⟩
    rw [hpointwise id hid hwaits, hindex]
    exact ⟨htold, by omega⟩

/-!
## A slot, its holder and a waiter
-/

/-- An answer to a request of a blocking user that does not sleep, where the clock stands still. -/
def answer? (scene : Scene τ) :
    (r : (Premises τ).Request) → Option ((Premises τ).Answer r × Keyspace τ)
  | .inl (.dial endpoint) => some (⟨0, endpoint, {}⟩, scene.keys)
  | .inl (.hangUp _) => some ((), scene.keys)
  | .inl (.call _ command) =>
      some ((scene.keys.run false 0 command).1.reply, (scene.keys.run false 0 command).2)
  | .inr .freshId => some ("newcomer", scene.keys)
  | .inr .now => some ((0 : τ), scene.keys)
  | .inr (.record ..) => some ((), scene.keys)
  | .inr _ => none

def next? (scene : Scene τ) : Option (Scene τ) :=
  match scene.plan with
  | .ask r next =>
      match scene.answer? r with
      | none => none
      | some (answer, keys) => some ⟨keys, scene.stake.after r answer, next answer⟩
  | plan =>
      match plan.turn? with
      | none => none
      | some plan' => some { scene with plan := plan' }

def drive (scene : Scene τ) : Nat → Option (Scene τ)
  | 0 => some scene
  | steps + 1 =>
      match scene.next? with
      | none => none
      | some scene' => scene'.drive steps

theorem answers_of_answer? {r : (Premises τ).Request} {answer : (Premises τ).Answer r}
    (h : scene.answer? r = some (answer, keys)) : Answers scene r answer keys := by
  rcases r with (endpoint | ⟨client, command⟩ | client) | r
  · cases h
    exact .dial endpoint _
  · cases h
    exact .call client (.answered false 0)
  · cases h
    exact .hangUp client
  · cases r with
    | freshId =>
        cases h
        exact .ambient _ _
    | now =>
        cases h
        exact .ambient _ _
    | record mode entry =>
        cases h
        exact .ambient _ _
    | _ => cases h

theorem step_of_next? (h : scene.next? = some scene') : Step scene scene' := by
  unfold next? at h
  split at h
  · rename_i r next hplan
    split at h
    · cases h
    · rename_i answer keys hanswer
      cases h
      refine .hears ?_ (answers_of_answer? hanswer)
      rw [hplan]
      exact .ask r next answer
  · split at h
    · cases h
    · rename_i plan' hturn
      cases h
      exact .turn (Plan.turns_of_turn? hturn)

theorem drive_leads {steps : Nat} (h : scene.drive steps = some scene') :
    Leads scene scene' := by
  induction steps generalizing scene with
  | zero =>
      cases h
      exact .refl
  | succ steps ih =>
      unfold drive at h
      split at h
      · cases h
      · rename_i scene₁ hnext
        exact .head (step_of_next? hnext) (ih h)

/-- A semaphore with one slot, for which nobody queues behind another waiter. -/
def booth : Semaphore Float where
  key := "booth"
  capacity := 1
  maxPosition := 1
  sleepDuration := 0.1
  sound := by decide +kernel

/-- The slot is held, and somebody waits for it. -/
def boothKeys : Keyspace Float where
  lists := [(booth.queueKey, ["holder", "waiter"].map String.toUTF8)]

theorem boothKeys_lists :
    boothKeys.Lists booth.queueKey (["holder", "waiter"].map String.toUTF8) := by
  constructor
  · simp [boothKeys]
  · simp [boothKeys, Keyspace.items, Table.get?]

def newcomer : Scene Float :=
  opening ⟨.blocking, booth, []⟩ none boothKeys

def refused (scene : Scene τ) : Bool :=
  match scene.plan with
  | .pure (.error e) => Blocking.isRefusal e
  | _ => false

theorem eq_of_refused (h : scene.refused = true) :
    ∃ e, scene.plan = .pure (.error e) ∧ e.Refuses .blocking := by
  unfold refused at h
  split at h
  · rename_i e hplan
    exact ⟨e, hplan, h⟩
  · cases h

/-- A third user is told that it stands too far back, and lets in the one that waits for the slot
although its holder has not given it back. -/
theorem refused_lets_in_iff_of_newcomer : ∃ scene e,
    Leads newcomer scene ∧ scene.plan = .pure (.error e) ∧ e.Refuses .blocking ∧
      ∃ id ∈ ["holder", "waiter"],
        ¬ boothKeys.LetsIn booth.queueKey booth.capacity id ∧
          scene.keys.LetsIn booth.queueKey booth.capacity id := by
  have hdrive : ((newcomer.drive 14).map fun scene => (scene.refused, scene.stake)) =
      some (true, .repaid "newcomer") := by
    decide +kernel
  rcases Option.map_eq_some_iff.mp hdrive with ⟨scene, hscene, hseen⟩
  rcases Prod.mk.inj hseen with ⟨hrefused, hstake⟩
  rcases eq_of_refused hrefused with ⟨e, hended, hrefuses⟩
  have hleads := drive_leads hscene
  have htold : scene.stake.Told := by
    rw [hstake]
    trivial
  refine ⟨scene, e, hleads, hended, hrefuses, ?_⟩
  have hlets := @refused_lets_in_iff _ _ ⟨.blocking, booth, []⟩ none boothKeys _ scene e
    boothKeys_lists (by decide) hleads hended hrefuses
  exact hlets.2.mpr ⟨htold, by decide⟩

end Scene
end Turnstile
