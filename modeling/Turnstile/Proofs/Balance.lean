import Turnstile.Proofs.Plan.Front
import Turnstile.Proofs.Redis.Dispatch
import Turnstile.Proofs.Refusal

/-!
# The balance of a refused request

A request for a slot that is refused is to leave the queue as long as it found it.  It removes one
head if it was told that its entry was made, and otherwise none.  What it was told may fall short
of what was done: a request that is interrupted between the effect of its push and the answer to
it has made an entry for which it removes nothing, and the queue stays longer by one.

## Main statements

* `Scene.leads_iff_sends` - all that can come of a request is reckoned with.
* `Scene.refused_balance` - a refused request removes a head just when it was told of its entry.
-/

namespace Turnstile

open Redis

variable {τ : Type} [Seconds τ]

namespace Stake

def asked : Stake → Nat
  | .unnamed | .named _ => 0
  | .unsure _ | .entered _ | .repaid _ => 1

def known : Stake → Nat
  | .unnamed | .named _ | .unsure _ => 0
  | .entered _ | .repaid _ => 1

def paid : Stake → Nat
  | .unnamed | .named _ | .unsure _ | .entered _ => 0
  | .repaid _ => 1

theorem asked_le_one (φ : Stake) : φ.asked ≤ 1 := by
  cases φ with
  | unnamed => exact Nat.zero_le 1
  | named id => exact Nat.zero_le 1
  | _ => exact Nat.le_refl 1

theorem paid_le_known (φ : Stake) : φ.paid ≤ φ.known := by
  cases φ with
  | repaid id => exact Nat.le_refl 1
  | _ => exact Nat.zero_le _

theorem paid_eq_known {φ : Stake} (h : ∀ id, φ ≠ .entered id) : φ.paid = φ.known := by
  cases φ with
  | entered id => exact absurd rfl (h id)
  | _ => rfl

theorem ofQueue_of_allows {φ : Stake} {key : String} {client : Client} {command : Command}
    (h : φ.allows key (.inl (.call client command) : (Premises τ).Request)) :
    command.OfQueue key := by
  cases command with
  | ping => trivial
  | rpush key' id => exact h.1
  | lpos key' id => exact h
  | lpop key' count => exact ⟨h.1, h.2.1⟩
  | expire key' seconds => exact h
  | llen key' => exact h.elim

end Stake

namespace Scene

/-!
## What a request sends
-/

/-- The answers that the request may be given, the commands that were sent for them, and what
becomes of the server. -/
inductive Tells (scene : Scene τ) : (r : (Premises τ).Request) → (Premises τ).Answer r →
    List (Dispatch τ) → Keyspace τ → Prop where
  | dial (endpoint : String) (client : Client) :
      Tells scene (.inl (.dial endpoint)) client [] scene.keys
  | hangUp (client : Client) : Tells scene (.inl (.hangUp client)) () [] scene.keys
  | call (client : Client) {command : Command} {took : Bool}
      {reply : Except (Failure τ) command.Reply} {keys : Keyspace τ}
      (executed : Keyspace.Executed
        (fun e => e = .interrupted ∧ scene.stake.Interruptible command) scene.keys command took
        reply keys) :
      Tells scene (.inl (.call client command)) reply [⟨command, took, reply⟩] keys
  | ambient (r : AmbientRequest τ) (answer : r.Answer τ) :
      Tells scene (.inr r) answer [] scene.keys

/-- The second scene can come of the first one, and the request has sent these commands. -/
inductive Sends (scene : Scene τ) : List (Dispatch τ) → Scene τ → Prop where
  | refl : Sends scene [] scene
  | turn {sent : List (Dispatch τ)} {scene' : Scene τ}
      {plan : Plan (Premises τ) τ (Except (Failure τ) Unit)} (sends : Sends scene sent scene')
      (turns : Plan.Turns True scene'.plan plan) : Sends scene sent { scene' with plan := plan }
  | hears {sent told : List (Dispatch τ)} {scene' : Scene τ} {r : (Premises τ).Request}
      {answer : (Premises τ).Answer r} {keys : Keyspace τ}
      {plan : Plan (Premises τ) τ (Except (Failure τ) Unit)} (sends : Sends scene sent scene')
      (asks : scene'.plan.Asks r answer plan) (tells : Tells scene' r answer told keys) :
      Sends scene (sent ++ told) ⟨keys, scene'.stake.after r answer, plan⟩

variable {user : User τ} {limit : Option τ} {keys : Keyspace τ} {line : List ByteArray}
  {scene scene' : Scene τ} {r : (Premises τ).Request} {answer : (Premises τ).Answer r}
  {sent told : List (Dispatch τ)}

theorem Tells.answers (h : Tells scene r answer told keys) : Answers scene r answer keys := by
  cases h with
  | dial endpoint client => exact .dial endpoint client
  | hangUp client => exact .hangUp client
  | call client executed => exact .call client executed
  | ambient r answer => exact .ambient r answer

theorem Answers.tells (h : Answers scene r answer keys) :
    ∃ told, Tells scene r answer told keys := by
  cases h with
  | dial endpoint client => exact ⟨_, .dial endpoint client⟩
  | hangUp client => exact ⟨_, .hangUp client⟩
  | call client executed => exact ⟨_, .call client executed⟩
  | ambient r answer => exact ⟨_, .ambient r answer⟩

theorem leads_iff_sends : Leads scene scene' ↔ ∃ sent, Sends scene sent scene' := by
  constructor
  · intro hleads
    induction hleads with
    | refl => exact ⟨[], .refl⟩
    | tail _ hstep ih =>
        rcases ih with ⟨sent, hsends⟩
        cases hstep with
        | turn turns => exact ⟨sent, .turn hsends turns⟩
        | hears asks answers =>
            rcases answers.tells with ⟨told, htells⟩
            exact ⟨sent ++ told, .hears hsends asks htells⟩
  · intro h
    rcases h with ⟨sent, hsends⟩
    induction hsends with
    | refl => exact .refl
    | turn _ turns ih => exact ih.tail (.turn turns)
    | hears _ asks tells ih => exact ih.tail (.hears asks tells.answers)

theorem Tells.enters_le (h : Tells scene r answer told keys) :
    told.countP Dispatch.enters ≤ told.countP Dispatch.makes := by
  cases h with
  | @call client command took reply keys executed =>
      cases command with
      | rpush key id =>
          cases executed with
          | answered decodes time => exact List.countP_le_length
          | refused fault => exact Nat.le_refl 0
          | lost fault decodes time => exact Nat.zero_le 1
      | _ => exact Nat.le_refl 0
  | _ => exact Nat.le_refl 0

theorem Tells.stakes {key : String} (h : Tells scene r answer told keys)
    (hallows : scene.stake.allows key r) :
    told.countP Dispatch.makes + scene.stake.asked ≤ (scene.stake.after r answer).asked ∧
      told.countP Dispatch.enters + scene.stake.known = (scene.stake.after r answer).known ∧
      told.countP Dispatch.removes + scene.stake.paid = (scene.stake.after r answer).paid := by
  -- Most answers leave the stake as it is.
  have hsame : ∀ φ : Stake,
      0 + φ.asked ≤ φ.asked ∧ 0 + φ.known = φ.known ∧ 0 + φ.paid = φ.paid :=
    fun _ => ⟨Nat.le_of_eq (Nat.zero_add _), Nat.zero_add _, Nat.zero_add _⟩
  cases h with
  | @call client command took reply keys executed =>
      cases command with
      | rpush key' id =>
          have hmade : ([⟨.rpush key' id, took, reply⟩] : List (Dispatch τ)).countP
              Dispatch.makes ≤ 1 := List.countP_le_length
          rw [show scene.stake = .named id from hallows.2]
          cases reply with
          | ok length => exact ⟨hmade, rfl, rfl⟩
          | error e => exact ⟨hmade, rfl, rfl⟩
      | lpop key' count =>
          rcases hallows with ⟨_, _, id, hentered⟩
          rw [hentered]
          exact ⟨Nat.le_refl 1, rfl, rfl⟩
      | _ => exact hsame scene.stake
  | ambient r answer =>
      cases r with
      | freshId =>
          rw [show scene.stake = .unnamed from hallows]
          exact ⟨Nat.le_refl 0, rfl, rfl⟩
      | _ => exact hsame scene.stake
  | _ => exact hsame scene.stake

theorem Tells.lists {key : String} (h : Tells scene r answer told keys)
    (hallows : scene.stake.allows key r) (hlists : scene.keys.Lists key line) :
    ∃ rest, keys.Lists key rest ∧ rest.length =
      line.length + told.countP Dispatch.makes - told.countP Dispatch.removes := by
  cases h with
  | @call client command took reply keys executed =>
      refine ⟨_, executed.lists hlists (Stake.ofQueue_of_allows hallows), ?_⟩
      cases command with
      | rpush key' id =>
          cases took with
          | true => exact List.length_append
          | false => rfl
      | lpop key' count =>
          -- A removal cannot be interrupted, so that it takes effect.
          cases executed with
          | answered decodes time => exact List.length_tail
          | refused fault => exact fault.2.elim
          | lost fault decodes time => exact fault.2.elim
      | _ => exact congrArg List.length (ite_self line)
  | _ => exact ⟨line, hlists, rfl⟩

/-!
## Reckonings
-/

/-- What holds of a request that has sent some commands, on a queue that held `line` at first. -/
structure Reckoned (user : User τ) (line : List ByteArray) (sent : List (Dispatch τ))
    (scene : Scene τ) : Prop where
  meets : scene.plan.Meets (Stake.terms user.semaphore.queueKey) scene.stake
    (Action.Ends (fun _ _ => True) fun φ e => e.Refuses user.mode → ∀ id, φ ≠ .entered id)
  made : sent.countP Dispatch.makes ≤ scene.stake.asked
  entered : sent.countP Dispatch.enters = scene.stake.known
  removed : sent.countP Dispatch.removes = scene.stake.paid
  seen : sent.countP Dispatch.enters ≤ sent.countP Dispatch.makes
  leaves : ∃ rest, scene.keys.Lists user.semaphore.queueKey rest ∧
    rest.length + sent.countP Dispatch.removes = line.length + sent.countP Dispatch.makes

theorem Reckoned.opening (hlists : keys.Lists user.semaphore.queueKey line) :
    (opening user limit keys).Reckoned user line [] where
  meets := opening_meets
  made := Nat.le_refl 0
  entered := rfl
  removed := rfl
  seen := Nat.le_refl 0
  leaves := ⟨line, hlists, rfl⟩

theorem Reckoned.hears (h : scene.Reckoned user line sent)
    {plan : Plan (Premises τ) τ (Except (Failure τ) Unit)} (asks : scene.plan.Asks r answer plan)
    (tells : Tells scene r answer told keys) :
    (⟨keys, scene.stake.after r answer, plan⟩ : Scene τ).Reckoned user line (sent ++ told) := by
  rcases h.meets.asks asks with ⟨hallows, hnext⟩
  rcases tells.stakes hallows with ⟨hasked, hknown, hpaid⟩
  rcases h.leaves with ⟨rest, hlists, hlength⟩
  rcases tells.lists hallows hlists with ⟨rest', hlists', hlength'⟩
  have hmade := h.made
  have hentered := h.entered
  have hremoved := h.removed
  have hseen := h.seen
  have htold := tells.enters_le
  -- No more heads are removed than entries were made, so that a removal never finds nothing.
  have hpaid_le := (scene.stake.after r answer).paid_le_known
  refine ⟨hnext answer tells.answers.expects rfl, ?_, ?_, ?_, ?_, rest', hlists', ?_⟩
  all_goals
    simp only [List.countP_append]
    omega

theorem Reckoned.sends (h : scene.Reckoned user line []) (hsends : Sends scene sent scene') :
    scene'.Reckoned user line sent := by
  induction hsends with
  | refl => exact h
  | turn _ turns ih =>
      exact ⟨ih.meets.turns turns, ih.made, ih.entered, ih.removed, ih.seen, ih.leaves⟩
  | hears _ asks tells ih => exact ih.hears asks tells

/-- A request for a slot that is refused has made at most one entry, and it has removed one head if
it was told of its entry, and none otherwise.  So the queue is as long as it was found, unless an
entry was made and the request was not told of it. -/
theorem refused_balance {e : Failure τ} (hlists : keys.Lists user.semaphore.queueKey line)
    (hsends : Sends (opening user limit keys) sent scene) (hended : scene.plan = .pure (.error e))
    (hrefused : e.Refuses user.mode) :
    sent.countP Dispatch.makes ≤ 1 ∧
      sent.countP Dispatch.enters ≤ sent.countP Dispatch.makes ∧
      sent.countP Dispatch.removes = sent.countP Dispatch.enters ∧
      ∃ rest, scene.keys.Lists user.semaphore.queueKey rest ∧
        rest.length + sent.countP Dispatch.enters =
          line.length + sent.countP Dispatch.makes := by
  have hreckoned := (Reckoned.opening hlists).sends hsends
  have hmeets := hreckoned.meets
  rw [hended] at hmeets
  have hremoved : sent.countP Dispatch.removes = sent.countP Dispatch.enters := by
    rw [hreckoned.removed, hreckoned.entered]
    exact Stake.paid_eq_known (hmeets hrefused)
  have hmade := hreckoned.made
  have hasked := scene.stake.asked_le_one
  refine ⟨by omega, hreckoned.seen, hremoved, ?_⟩
  rw [← hremoved]
  exact hreckoned.leaves

/-!
## An answer that is lost
-/

/-- What happens next to a request: it is answered, it is interrupted when its push took effect, or
it goes on by itself.  If it waited for a body, that came to its end in the given way. -/
inductive Cue where
  | go
  | cut
  | stir (lapse : Lapse)

def noted : (r : (Premises τ).Request) → (Premises τ).Answer r → List (Dispatch τ)
  | .inl (.call _ command), reply => [⟨command, true, reply⟩]
  | _, _ => []

def hear (scene : Scene τ) (sent : List (Dispatch τ))
    (answer? : (r : (Premises τ).Request) →
      Option ((Premises τ).Answer r × List (Dispatch τ) × Keyspace τ)) :
    Option (List (Dispatch τ) × Scene τ) :=
  match scene.plan.front? with
  | none => none
  | some ⟨r, goOn⟩ =>
      match answer? r with
      | none => none
      | some (answer, told, keys) =>
          some (sent ++ told, ⟨keys, scene.stake.after r answer, goOn answer⟩)

/-- An answer to a push that was interrupted when it took effect. -/
def cut? (scene : Scene τ) :
    (r : (Premises τ).Request) →
      Option ((Premises τ).Answer r × List (Dispatch τ) × Keyspace τ)
  | .inl (.call _ (.rpush key id)) =>
      some (.error .interrupted, [⟨.rpush key id, true, .error .interrupted⟩],
        (scene.keys.run false 0 (.rpush key id)).2)
  | _ => none

def cue? (scene : Scene τ) (sent : List (Dispatch τ)) :
    Cue → Option (List (Dispatch τ) × Scene τ)
  | .go => scene.hear sent fun r => (scene.answer? r).map fun a => (a.1, noted r a.1, a.2)
  | .cut => scene.hear sent scene.cut?
  | .stir lapse => (scene.plan.stir? lapse).map fun plan => (sent, { scene with plan := plan })

def follow (scene : Scene τ) (sent : List (Dispatch τ)) :
    List Cue → Option (List (Dispatch τ) × Scene τ)
  | [] => some (sent, scene)
  | cue :: rest =>
      match scene.cue? sent cue with
      | none => none
      | some (sent', scene') => scene'.follow sent' rest

theorem tells_of_answer? (h : scene.answer? r = some (answer, keys)) :
    Tells scene r answer (noted r answer) keys := by
  rcases r with (endpoint | ⟨client, command⟩ | client) | r
  · cases h
    exact .dial endpoint _
  · cases h
    exact .call client (.answered false 0)
  · cases h
    exact .hangUp client
  · cases r with
    | freshId =>
        cases h
        exact .ambient _ _
    | now =>
        cases h
        exact .ambient _ _
    | record mode entry =>
        cases h
        exact .ambient _ _
    | _ => cases h

theorem tells_of_cut? (h : scene.cut? r = some (answer, told, keys)) :
    Tells scene r answer told keys := by
  unfold cut? at h
  split at h
  · cases h
    exact .call _ (.lost ⟨rfl, trivial⟩ false 0)
  · cases h

variable {origin : Scene τ} {sent' : List (Dispatch τ)}

theorem sends_of_hear {answer? : (r : (Premises τ).Request) →
      Option ((Premises τ).Answer r × List (Dispatch τ) × Keyspace τ)}
    (hanswer : ∀ r answer told keys, answer? r = some (answer, told, keys) →
      Tells scene r answer told keys)
    (hsends : Sends origin sent scene) (h : scene.hear sent answer? = some (sent', scene')) :
    Sends origin sent' scene' := by
  unfold hear at h
  split at h
  · cases h
  · rename_i r goOn hfront
    split at h
    · cases h
    · rename_i answer told keys hanswered
      cases h
      exact .hears hsends (Plan.asks_of_front? hfront answer) (hanswer r answer told keys hanswered)

theorem sends_of_cue? {cue : Cue} (hsends : Sends origin sent scene)
    (h : scene.cue? sent cue = some (sent', scene')) : Sends origin sent' scene' := by
  cases cue with
  | go =>
      refine sends_of_hear ?_ hsends h
      intro r answer told keys hanswer
      rcases Option.map_eq_some_iff.mp hanswer with ⟨⟨answer, keys⟩, hanswered, heq⟩
      cases heq
      exact tells_of_answer? hanswered
  | cut => exact sends_of_hear (fun _ _ _ _ => tells_of_cut?) hsends h
  | stir lapse =>
      rcases Option.map_eq_some_iff.mp h with ⟨plan, hstir, heq⟩
      cases heq
      exact .turn hsends (Plan.turns_of_stir? (Or.inr trivial) hstir)

theorem sends_of_follow {cues : List Cue} (hsends : Sends origin sent scene)
    (h : scene.follow sent cues = some (sent', scene')) : Sends origin sent' scene' := by
  induction cues generalizing sent scene with
  | nil =>
      cases h
      exact hsends
  | cons cue rest ih =>
      unfold follow at h
      split at h
      · cases h
      · rename_i hcue
        exact ih (sends_of_cue? hsends hcue) h

def isLate (scene : Scene τ) : Bool :=
  match scene.plan with
  | .pure (.error e) => e.isA .timeout
  | _ => false

theorem eq_of_isLate (h : scene.isLate = true) :
    ∃ e, scene.plan = .pure (.error e) ∧ e.Refuses .cooperative := by
  unfold isLate at h
  split at h
  · rename_i e hplan
    exact ⟨e, hplan, Or.inr h⟩
  · cases h

def passerBy : Scene Float :=
  opening ⟨.cooperative, booth, []⟩ (some 1) boothKeys

/-- The limit passes when the push took effect and was not answered yet. -/
def cutShort : List Cue :=
  List.replicate 5 .go ++ [.cut, .go, .stir .expired, .go]

/-- A request that runs out of time before its push is answered removes nothing, and the queue is
longer than it was. -/
theorem refused_balance_of_cutShort : ∃ sent scene e,
    Sends passerBy sent scene ∧ scene.plan = .pure (.error e) ∧ e.Refuses .cooperative ∧
      sent.countP Dispatch.makes = 1 ∧ sent.countP Dispatch.removes = 0 ∧
      ∃ rest, scene.keys.Lists booth.queueKey rest ∧ rest.length = 3 := by
  have hfollow : ((passerBy.follow [] cutShort).map fun ended =>
      (ended.2.isLate, ended.1.countP Dispatch.makes, ended.1.countP Dispatch.enters)) =
        some (true, 1, 0) := by
    decide +kernel
  rcases Option.map_eq_some_iff.mp hfollow with ⟨⟨sent, scene⟩, hended, hseen⟩
  rcases Prod.mk.inj hseen with ⟨hlate, hcounts⟩
  rcases Prod.mk.inj hcounts with ⟨hmade, hentered⟩
  rcases eq_of_isLate hlate with ⟨e, hplan, hrefuses⟩
  have hsends := sends_of_follow (.refl : Sends passerBy [] passerBy) hended
  have hbalance := @refused_balance _ _ ⟨.cooperative, booth, []⟩ (some 1) boothKeys _ scene sent e
    boothKeys_lists hsends hplan hrefuses
  rcases hbalance with ⟨_, _, hremoved, rest, hrest, hlength⟩
  rw [hentered] at hremoved hlength
  rw [hmade] at hlength
  exact ⟨sent, scene, e, hsends, hplan, hrefuses, hmade, hremoved, rest, hrest, hlength⟩

end Scene
end Turnstile
