import Turnstile.Backoff
import Turnstile.Proofs.CleanUp
import Turnstile.Proofs.Exact.Polls
import Turnstile.Proofs.Fault.Basic
import Turnstile.Proofs.Plan.Surely
import Turnstile.Proofs.Redis.Expiry
import Turnstile.Proofs.Vacancy

/-!
# A queue that stands still

Nobody else uses a queue, nothing fails, and nothing takes any time but sleeping.  The waiter that
enters such a queue keeps its place for ever.  If it has to wait there it waits until its time has
passed.

A server answers each command by what it keeps after all the commands before.  Time is exact, and
sleeps last as long as they are asked to, but whoever can be interrupted is woken at a deadline.

## Main definitions

* `Standstill` - what a waiter finds, and `Standstill.setting` - what it is answered.
* `Standstill.Stage` - what a waiter has done so far.
-/

namespace Turnstile

open Redis

/-- The time between two looks that is estimated if nothing else is asked for.  Square roots are
supplied from outside. -/
def standardEstimate (root : Nat → ℚ) (position capacity : Int) (base : ℚ) :
    Except (Failure ℚ) ℚ :=
  (Backoff.standard.estimate (fun distance => some (root distance)) position capacity base
    ⟨none, .fresh []⟩).map Prod.fst

theorem one_le_defaultCeiling : (1 : ℚ) ≤ Backoff.defaultCeiling := by
  show (1 : ℚ) ≤ ((10000 : Int) : ℚ) / 1000
  norm_num

theorem one_le_factor (root : ℚ) : 1 ≤ (Backoff.standard : Backoff ℚ).factor root := by
  have hlater : (1 : ℚ) ≤ Seconds.later root 1 := by
    unfold Seconds.later
    split
    · exact le_rfl
    · rename_i hroot
      exact not_lt.mp hroot
  unfold Backoff.factor
  rw [earlier_eq_min]
  exact le_min hlater one_le_defaultCeiling

theorem exists_standardEstimate (root : Nat → ℚ) (position capacity : Int) {base : ℚ}
    (hbase : 0 < base) :
    ∃ duration, 0 < duration ∧
      standardEstimate root position capacity base = .ok duration := by
  have hfactor := one_le_factor (root (Backoff.distance position capacity))
  refine ⟨base * Backoff.standard.factor (root (Backoff.distance position capacity)),
    mul_pos hbase (zero_lt_one.trans_le hfactor), ?_⟩
  have hsound : (Backoff.standard : Backoff ℚ).defect? base = none := by
    have hceiling : ¬ (Backoff.standard : Backoff ℚ).ceiling < 1 :=
      not_lt.mpr one_le_defaultCeiling
    have hjitter : ¬ (Backoff.standard : Backoff ℚ).jitter < 0 := lt_irrefl (0 : ℚ)
    unfold Backoff.defect?
    rw [if_neg (not_le.mpr hbase), if_neg hceiling, if_neg hjitter]
  unfold standardEstimate Backoff.estimate
  rw [hsound]
  exact congrArg (Except.map Prod.fst) (if_pos (le_refl (0 : ℚ)))

theorem Redis.Keyspace.Lists.list?_cons {τ : Type} {keys : Keyspace τ} {key : String}
    {head : ByteArray} {rest : List ByteArray} (h : keys.Lists key (head :: rest)) :
    keys.list? key = .ok (some (head :: rest)) := by
  rw [h.list?]
  have hitems := h.getD
  cases hget : keys.lists.get? key with
  | none =>
      rw [hget] at hitems
      cases hitems
  | some items =>
      rw [hget] at hitems
      rw [← hitems]
      rfl

/-!
## What is answered
-/

/-- What a waiter finds: what the server keeps, how clients read it, the moment from which an expiry
counts, the next fresh identity, and how square roots are computed. -/
structure Standstill where
  keys : Keyspace ℚ
  decodes : Bool
  moment : ℚ
  id : String
  root : Nat → ℚ

/-- Nothing takes any time but sleeping, and the clock shows it.  Whoever can be interrupted does
not sleep beyond a deadline. -/
def exactPace (deadline : ℚ) : Plan.Pace (Premises ℚ) ℚ
  | cut, began, .inr (.sleep duration), (reply : Except (Failure ℚ) Unit), met =>
      reply = .ok () ∧ met = began + duration ∧ (cut → met ≤ deadline) ∨
        reply = .error .interrupted ∧ met = deadline ∧ cut ∧ deadline ≤ began + duration
  | _, began, .inr .now, time, met => time = began ∧ met = began
  | _, began, _, _, met => met = began

def renewals (heard : Heard ℚ) : List (String × Int) :=
  heard.filterMap fun exchange =>
    match exchange.1 with
    | .inl (.call _ (.expire key seconds)) => some (key, seconds)
    | _ => none

def taken (heard : Heard ℚ) : List (Ticket ℚ) :=
  heard.filterMap fun exchange =>
    match exchange.1 with
    | .inr (.hold ticket) => some ticket
    | _ => none

namespace Standstill

variable (still : Standstill)

def after (heard : Heard ℚ) : Keyspace ℚ :=
  still.keys.following still.decodes still.moment heard

def Answers (past : Heard ℚ) : Plan.Exchange (Premises ℚ) → Prop
  | ⟨.inl (.call _ command), reply⟩ =>
      reply = ((still.after past).run still.decodes still.moment command).1.reply
  | ⟨.inr (.estimate position capacity base), reply⟩ =>
      reply = standardEstimate still.root position capacity base
  | ⟨.inr .freshId, id⟩ => id = still.id
  | _ => True

/-- What is answered to a waiter that is woken at a deadline if it can be interrupted. -/
def setting (deadline : ℚ) : Plan.Setting (Premises ℚ) ℚ where
  pace := exactPace deadline
  allowed := still.Answers

/-- What a waiter has done so far: which entries there are, which expiries were given, and that no
slot is held. -/
structure Stage (key : String) (line : List String) (renewed : List (String × Int))
    (past : Heard ℚ) : Prop where
  lists : (still.after past).Lists key (line.map String.toUTF8)
  renewed : renewals past = renewed
  idle : taken past = []

variable {still} {key : String} {line line' : List String} {renewed : List (String × Int)}
  {past : Heard ℚ}

theorem Stage.next {exchange : Plan.Exchange (Premises ℚ)} {more : List (String × Int)}
    (h : still.Stage key line renewed past)
    (hlists : ((still.after past).following still.decodes still.moment [exchange]).Lists key
      (line'.map String.toUTF8))
    (hrenewals : renewals [exchange] = more) (htaken : taken [exchange] = []) :
    still.Stage key line' (renewed ++ more) (past ++ [exchange]) := by
  constructor
  · unfold after at hlists ⊢
    rw [Keyspace.following_append]
    exact hlists
  · unfold renewals at hrenewals ⊢
    rw [List.filterMap_append, hrenewals]
    exact congrArg (· ++ more) h.renewed
  · unfold taken at htaken ⊢
    rw [List.filterMap_append, htaken]
    exact (List.append_nil _).trans h.idle

theorem Stage.changes {exchange : Plan.Exchange (Premises ℚ)}
    (h : still.Stage key line renewed past)
    (hlists : ((still.after past).following still.decodes still.moment [exchange]).Lists key
      (line'.map String.toUTF8))
    (hrenewals : renewals [exchange] = []) (htaken : taken [exchange] = []) :
    still.Stage key line' renewed (past ++ [exchange]) := by
  rw [← List.append_nil renewed]
  exact h.next hlists hrenewals htaken

theorem Stage.quiet {exchange : Plan.Exchange (Premises ℚ)}
    (h : still.Stage key line renewed past)
    (hkeys : (still.after past).following still.decodes still.moment [exchange] = still.after past)
    (hrenewals : renewals [exchange] = []) (htaken : taken [exchange] = []) :
    still.Stage key line renewed (past ++ [exchange]) := by
  apply h.changes _ hrenewals htaken
  rw [hkeys]
  exact h.lists

/-!
## Requests
-/

section Requests

variable {α β : Type} {must cut : Prop} {began deadline : ℚ}

abbrev Does (still : Standstill) (deadline : ℚ) (must cut : Prop) (past : Heard ℚ) (began : ℚ)
    (operation : Operation Queue ℚ α) (done : Heard ℚ → ℚ → α → Prop) : Prop :=
  (still.setting deadline).Ends must cut past began (onPremises operation)
    fun past' finish ended => ∃ a, ended = .ok a ∧ done past' finish a

theorem ends_then {action : Operation Queue ℚ α} {next : α → Operation Queue ℚ β}
    {mid : Heard ℚ → ℚ → α → Prop} {post : Heard ℚ → ℚ → Except (Failure ℚ) β → Prop}
    (h : still.Does deadline must cut past began action mid)
    (hnext : ∀ past' between a, mid past' between a →
      (still.setting deadline).Ends must cut past' between (onPremises (next a)) post) :
    (still.setting deadline).Ends must cut past began (onPremises (action >>= next)) post := by
  rw [onPremises_bind]
  apply Plan.Setting.ends_bind h
  rintro past' between _ ⟨a, rfl, ha⟩
  exact hnext past' between a ha

theorem does_pure {a : α} {done : Heard ℚ → ℚ → α → Prop} (h : done past began a) :
    still.Does deadline must cut past began (pure a) done :=
  Plan.Setting.ends_pure ⟨a, rfl, h⟩

theorem does_lift {plan : Plan (Service Queue ℚ) ℚ α} {done : Heard ℚ → ℚ → α → Prop}
    (h : (still.setting deadline).Ends must cut past began (plan.serve serveOnPremises) done) :
    still.Does deadline must cut past began (ExceptT.lift plan) done := by
  unfold Does
  rw [onPremises_lift]
  apply Plan.Setting.ends_bind h
  intro past' between a ha
  exact Plan.Setting.ends_pure ⟨a, rfl, ha⟩

theorem ends_ambient {r : AmbientRequest ℚ} {post : Heard ℚ → ℚ → r.Answer ℚ → Prop}
    (hcan : ∃ answer met, exactPace deadline cut began (.inr r) answer met ∧
      still.Answers past ⟨.inr r, answer⟩)
    (h : ∀ answer met, exactPace deadline cut began (.inr r) answer met →
      still.Answers past ⟨.inr r, answer⟩ → post (past ++ [⟨.inr r, answer⟩]) met answer) :
    (still.setting deadline).Ends must cut past began ((Service.ambient r).serve serveOnPremises)
      post := by
  apply Plan.Setting.ends_ask
  · exact hcan
  · intro answer met hanswer hallowed
    exact Plan.Setting.ends_pure (h answer met hanswer hallowed)

theorem ends_now (h : still.Stage key line renewed past) :
    (still.setting deadline).Ends must cut past began
      ((Service.ambient .now).serve serveOnPremises) fun past' finish (time : ℚ) =>
        time = began ∧ finish = began ∧ still.Stage key line renewed past' := by
  apply ends_ambient
  · exact ⟨began, began, ⟨rfl, rfl⟩, trivial⟩
  · rintro time met ⟨htime, hmet⟩ _
    exact ⟨htime, hmet, h.quiet rfl rfl rfl⟩

theorem does_record (h : still.Stage key line renewed past) (mode : Mode) (entry : Entry ℚ) :
    still.Does deadline must cut past began (Service.record mode entry) fun past' finish _ =>
      finish = began ∧ still.Stage key line renewed past' := by
  apply does_lift
  apply ends_ambient
  · exact ⟨(), began, rfl, trivial⟩
  · intro _ met hmet _
    exact ⟨hmet, h.quiet rfl rfl rfl⟩

theorem does_elapsedSince (h : still.Stage key line renewed past) (started : ℚ) :
    still.Does deadline must cut past began (Service.elapsedSince started) fun past' finish ms =>
      ms = nearest ((began - started) * 1000) ∧ finish = began ∧
        still.Stage key line renewed past' := by
  apply ends_then (does_lift (ends_now h))
  rintro past' between _ ⟨rfl, rfl, hstage⟩
  exact does_pure ⟨rfl, rfl, hstage⟩

theorem does_newTicket (h : still.Stage key line renewed past) {semaphore : Semaphore ℚ}
    {ticket : Ticket ℚ} (hticket : (semaphore.ticketForm still.id).issue = .ok ticket) :
    still.Does deadline must cut past began semaphore.newTicket fun past' finish issued =>
      issued = ticket ∧ finish = began ∧ still.Stage key line renewed past' := by
  have hfresh : still.Does deadline must cut past began Service.freshId fun past' finish id =>
      id = still.id ∧ finish = began ∧ still.Stage key line renewed past' := by
    apply does_lift
    apply ends_ambient
    · exact ⟨still.id, began, rfl, rfl⟩
    · intro id met hmet hid
      exact ⟨hid, hmet, h.quiet rfl rfl rfl⟩
  apply ends_then hfresh
  rintro past' between _ ⟨rfl, rfl, hstage⟩
  rw [hticket]
  exact does_pure ⟨rfl, rfl, hstage⟩

theorem does_estimate (h : still.Stage key line renewed past) {base duration : ℚ}
    {position capacity : Int}
    (hduration : standardEstimate still.root position capacity base = .ok duration) :
    still.Does deadline must cut past began (Service.estimate position capacity base)
      fun past' finish estimated => estimated = duration ∧ finish = began ∧
        still.Stage key line renewed past' := by
  apply ends_ambient
  · exact ⟨.ok duration, began, rfl, hduration.symm⟩
  · intro _ met hmet hreply
    exact ⟨duration, hreply.trans hduration, rfl, hmet, h.quiet rfl rfl rfl⟩

theorem ends_sleep (h : still.Stage key line renewed past) (duration : ℚ) :
    (still.setting deadline).Ends must cut past began (onPremises (Service.sleep duration))
      fun past' finish ended => still.Stage key line renewed past' ∧
        (ended = .ok () ∧ finish = began + duration ∧ (cut → finish ≤ deadline) ∨
          ended = .error .interrupted ∧ finish = deadline ∧ cut) := by
  apply ends_ambient
  · by_cases hcut : cut
    · rcases le_total (began + duration) deadline with hle | hle
      · exact ⟨.ok (), _, Or.inl ⟨rfl, rfl, fun _ => hle⟩, trivial⟩
      · exact ⟨.error .interrupted, _, Or.inr ⟨rfl, rfl, hcut, hle⟩, trivial⟩
    · exact ⟨.ok (), _, Or.inl ⟨rfl, rfl, fun h => absurd h hcut⟩, trivial⟩
  · rintro _ met (⟨hreply, hmet, hdeadline⟩ | ⟨hreply, hmet, hcut, _⟩) _
    · exact ⟨h.quiet rfl rfl rfl, Or.inl ⟨hreply, hmet, hdeadline⟩⟩
    · exact ⟨h.quiet rfl rfl rfl, Or.inr ⟨hreply, hmet, hcut⟩⟩

theorem does_connect (h : still.Stage key line renewed past) (endpoint name : String) :
    still.Does deadline must cut past began (Service.connect endpoint name)
      fun past' finish queue => queue.key = name ∧ finish = began ∧
        still.Stage key line renewed past' := by
  apply Plan.Setting.ends_ask
  · exact ⟨(⟨0, endpoint, {}⟩ : Client), began, rfl, trivial⟩
  · rintro (client : Client) _ rfl _
    apply Plan.Setting.ends_ask
    · exact ⟨.ok (), _, rfl, rfl⟩
    · rintro _ _ rfl rfl
      exact Plan.Setting.ends_pure ⟨_, rfl, rfl, rfl, (h.quiet rfl rfl rfl).quiet rfl rfl rfl⟩

section Commands

variable {queue : Queue}

theorem does_push (h : still.Stage queue.key line renewed past) (id : String) :
    still.Does deadline must cut past began (Service.push queue id) fun past' finish length =>
      length = line.length + 1 ∧ finish = began ∧
        still.Stage queue.key (line ++ [id]) renewed past' := by
  have hreply := h.lists.rpush_reply id
  rw [List.length_map] at hreply
  have hlists := h.lists.rpush id
  apply Plan.Setting.ends_ask
  · exact ⟨_, _, rfl, rfl⟩
  · rintro reply _ rfl hserved
    cases hserved.trans hreply
    refine Plan.Setting.ends_pure ⟨_, rfl, rfl, rfl, h.changes ?_ rfl rfl⟩
    rw [List.map_append]
    exact hlists

theorem does_position (h : still.Stage queue.key line renewed past) (id : String) :
    still.Does deadline must cut past began (Service.position queue id) fun past' finish rank =>
      rank = line.idxOf? id ∧ finish = began ∧ still.Stage queue.key line renewed past' := by
  have hreply := h.lists.lpos_reply id
  rw [idxOf?_map_toUTF8] at hreply
  apply Plan.Setting.ends_ask
  · exact ⟨_, _, rfl, rfl⟩
  · rintro reply _ rfl hserved
    cases hserved.trans hreply
    exact Plan.Setting.ends_pure ⟨_, rfl, rfl, rfl, h.quiet rfl rfl rfl⟩

theorem does_pop {head : String} {rest : List String}
    (h : still.Stage queue.key (head :: rest) renewed past) :
    still.Does deadline must cut past began (Service.pop queue 1) fun past' finish popped =>
      popped = [head] ∧ finish = began ∧ still.Stage queue.key rest renewed past' := by
  have hlists := h.lists.lpop still.decodes
  rcases Keyspace.lpop_head h.lists.list?_cons still.decodes with ⟨_, popped, hreply, hitems⟩
  apply Plan.Setting.ends_ask
  · exact ⟨_, _, rfl, rfl⟩
  · rintro reply _ rfl hserved
    cases hserved.trans hreply
    exact Plan.Setting.ends_pure ⟨[head], hitems, rfl, rfl, h.changes hlists rfl rfl⟩

theorem does_expire {head : String} {rest : List String} {seconds : Int}
    (h : still.Stage queue.key (head :: rest) renewed past) (hseconds : 1 ≤ seconds) :
    still.Does deadline must cut past began (Service.expire queue seconds) fun past' finish held =>
      held = true ∧ finish = began ∧
        still.Stage queue.key (head :: rest) (renewed ++ [(queue.key, seconds)]) past' := by
  have hlists := h.lists.expire still.moment hseconds
  have hreply : ((still.after past).expire still.moment queue.key seconds).1.reply = .ok true :=
    congrArg (·.1.reply) (Keyspace.expire_of_holds
      (Keyspace.holds_of_list?_some h.lists.list?_cons) hseconds rfl)
  apply Plan.Setting.ends_ask
  · exact ⟨_, _, rfl, rfl⟩
  · rintro reply _ rfl hserved
    cases hserved.trans hreply
    exact Plan.Setting.ends_pure ⟨true, rfl, rfl, rfl, h.next hlists rfl rfl⟩

theorem ends_close (h : still.Stage key line renewed past) :
    (still.setting deadline).Ends must cut past began ((Service.close queue).serve serveOnPremises)
      fun past' finish _ => finish = began ∧ still.Stage key line renewed past' := by
  rcases queue with ⟨client, name, owns⟩
  cases owns with
  | true =>
      apply Plan.Setting.ends_ask
      · exact ⟨(), began, rfl, trivial⟩
      · rintro _ _ rfl _
        exact Plan.Setting.ends_pure ⟨rfl, h.quiet rfl rfl rfl⟩
  | false => exact Plan.Setting.ends_pure ⟨rfl, h⟩

end Commands

theorem ends_closing {queue : Queue} {body : Operation Queue ℚ α}
    {post : ℚ → Except (Failure ℚ) α → Prop}
    (h : (still.setting deadline).Ends must cut past began (onPremises body)
      fun past' finish ended => still.Stage key line renewed past' ∧ post finish ended) :
    (still.setting deadline).Ends must cut past began
      (onPremises (Action.ensuring (Service.close queue) body))
      fun past' finish ended => still.Stage key line renewed past' ∧ post finish ended := by
  rw [onPremises_ensuring]
  apply Plan.Setting.ends_bind h
  rintro past' between ended ⟨hstage, hended⟩
  apply Plan.Setting.ends_serve (ends_close hstage)
  rintro past'' finish _ ⟨rfl, hstage'⟩
  exact Plan.Setting.ends_pure ⟨hstage', hended⟩

theorem does_closing {queue : Queue} {body : Operation Queue ℚ α} {done : α → Prop}
    (h : still.Does deadline must cut past began body fun past' finish a =>
      done a ∧ finish = began ∧ still.Stage key line renewed past') :
    still.Does deadline must cut past began (Action.ensuring (Service.close queue) body)
      fun past' finish a => done a ∧ finish = began ∧ still.Stage key line renewed past' := by
  have hbody : (still.setting deadline).Ends must cut past began (onPremises body)
      fun past' finish ended => still.Stage key line renewed past' ∧
        ∃ a, ended = .ok a ∧ done a ∧ finish = began := by
    apply h.mono
    rintro past' finish ended ⟨a, hended, hdone, hfinish, hstage⟩
    exact ⟨hstage, a, hended, hdone, hfinish⟩
  apply (ends_closing hbody).mono
  rintro past' finish ended ⟨hstage, a, hended, hdone, hfinish⟩
  exact ⟨a, hended, hdone, hfinish, hstage⟩

end Requests

/-!
## Clean-ups
-/

section CleanUps

variable {ticket : Ticket ℚ} {head next : String} {rest : List String} {must cut : Prop}
  {began deadline : ℚ}

theorem does_keepError {step : Operation Queue ℚ Unit}
    (h : still.Does deadline must cut past began step fun past' finish _ =>
      finish = began ∧ still.Stage key line renewed past') :
    still.Does deadline must cut past began (Blocking.keepError step) fun past' finish kept? =>
      kept? = none ∧ finish = began ∧ still.Stage key line renewed past' := by
  apply Plan.Setting.ends_serve h
  rintro past' between _ ⟨_, rfl, rfl, hstage⟩
  exact Plan.Setting.ends_pure ⟨none, rfl, rfl, rfl, hstage⟩

theorem does_blocking_cleanUp
    (h : still.Stage ticket.queueKey (head :: next :: rest) renewed past) :
    still.Does deadline must cut past began (Blocking.cleanUp ticket) fun past' finish _ =>
      finish = began ∧ still.Stage ticket.queueKey (next :: rest)
        (renewed ++ [(ticket.queueKey, ticket.expiry)]) past' := by
  apply ends_then (does_connect h ticket.endpoint ticket.queueKey)
  rintro past₁ time₁ queue ⟨hqueue, rfl, hopened⟩
  rw [← hqueue] at hopened ⊢
  apply ends_then
  · apply does_closing
    apply ends_then
    · apply does_keepError
      apply ends_then (does_pop hopened)
      rintro past₂ time₂ popped ⟨-, rfl, hpopped⟩
      exact does_record hpopped _ _
    · rintro past₂ time₂ _ ⟨rfl, rfl, hpopped⟩
      apply ends_then
      · apply does_keepError
        apply ends_then (does_expire hpopped ticket.one_le_expiry)
        rintro past₃ time₃ held ⟨-, rfl, hrenewed⟩
        exact does_pure ⟨rfl, hrenewed⟩
      · rintro past₃ time₃ _ ⟨rfl, rfl, hrenewed⟩
        exact does_pure ⟨rfl, rfl, hrenewed⟩
  · rintro past₄ time₄ _ ⟨rfl, rfl, hclosed⟩
    exact does_pure ⟨rfl, hclosed⟩

theorem does_cooperative_cleanUp
    (h : still.Stage ticket.queueKey (head :: next :: rest) renewed past) :
    still.Does deadline must False past began (Cooperative.cleanUp ticket) fun past' finish _ =>
      finish = began ∧ still.Stage ticket.queueKey (next :: rest)
        (renewed ++ [(ticket.queueKey, ticket.expiry)]) past' := by
  have hrenewal : still.Does deadline must False past began (Cooperative.renewExpiry ticket)
      fun past' finish _ => finish = began ∧ still.Stage ticket.queueKey (head :: next :: rest)
        (renewed ++ [(ticket.queueKey, ticket.expiry)]) past' := by
    apply ends_then (does_connect h ticket.endpoint ticket.queueKey)
    rintro past₁ time₁ queue ⟨hqueue, rfl, hopened⟩
    rw [← hqueue] at hopened ⊢
    apply ends_then (does_closing (does_expire hopened ticket.one_le_expiry))
    rintro past₂ time₂ held ⟨-, rfl, hrenewed⟩
    exact does_record hrenewed _ _
  apply Plan.Setting.ends_both
  apply hrenewal.mono
  rintro past₁ overRenewal _ ⟨_, rfl, rfl, hrenewed⟩
  have hremoval : still.Does deadline must False past₁ overRenewal (Cooperative.popHead ticket)
      fun past' finish _ => finish = overRenewal ∧ still.Stage ticket.queueKey (next :: rest)
        (renewed ++ [(ticket.queueKey, ticket.expiry)]) past' := by
    apply ends_then (does_connect hrenewed ticket.endpoint ticket.queueKey)
    rintro past₂ time₂ queue ⟨hqueue, rfl, hopened⟩
    rw [← hqueue] at hopened ⊢
    apply ends_then (does_closing (does_pop hopened))
    rintro past₃ time₃ popped ⟨-, rfl, hpopped⟩
    exact does_record hpopped _ _
  apply hremoval.mono
  rintro past₂ overRemoval _ ⟨_, rfl, rfl, hremoved⟩
  -- The legs begin at the same time and take none.
  have hover : Seconds.later overRemoval overRemoval = overRemoval := ite_self _
  rw [hover]
  exact Plan.Setting.ends_pure ⟨(), rfl, rfl, hremoved⟩

end CleanUps

/-!
## Loops
-/

section Loops

variable {α σ : Type} {must cut : Prop} {began deadline : ℚ} {step : σ → Operation Queue ℚ (σ ⊕ α)}

/-- A loop that can go round only a number of times, and then fails. -/
theorem ends_repeatFrom {post : Heard ℚ → ℚ → Except (Failure ℚ) α → Prop}
    (inv : Nat → Heard ℚ → ℚ → σ → Prop)
    (hround : ∀ count past began s, inv count past began s →
      (still.setting deadline).Ends must cut past began (onPremises (step s))
        fun past' between ended => (∃ e, ended = .error e ∧ post past' between (.error e)) ∨
          ∃ s' count', ended = .ok (.inl s') ∧ count' < count ∧ inv count' past' between s')
    {count : Nat} {start : σ} (hstart : inv count past began start) :
    (still.setting deadline).Ends must cut past began (onPremises (Action.repeatFrom start step))
      post := by
  apply Plan.Setting.ends_iterate inv _ hstart
  intro count past began s hinv
  apply Plan.Setting.ends_serve (hround count past began s hinv)
  rintro past' between _ (⟨e, rfl, hpost⟩ | ⟨s', count', rfl, hless, hinv'⟩)
  · exact Plan.Setting.ends_pure (Or.inl ⟨_, rfl, Plan.Setting.ends_pure hpost⟩)
  · exact Plan.Setting.ends_pure (Or.inr ⟨s', count', rfl, hless, hinv'⟩)

theorem never_repeatFrom {post : Heard ℚ → ℚ → Except (Failure ℚ) α → Prop} (hfree : ¬ must)
    (inv : Heard ℚ → σ → Prop)
    (hround : ∀ past began s, inv past s → still.Does deadline must cut past began (step s)
      fun past' _ result => past.length < past'.length ∧ ∃ s', result = .inl s' ∧ inv past' s')
    {start : σ} (hstart : inv past start) :
    (still.setting deadline).Ends must cut past began (onPremises (Action.repeatFrom start step))
      post := by
  apply Plan.Setting.never_iterate hfree inv _ hstart
  intro past began s hinv
  apply Plan.Setting.ends_serve (hround past began s hinv)
  rintro past' between _ ⟨_, rfl, hgrown, s', rfl, hinv'⟩
  exact Plan.Setting.ends_pure ⟨hgrown, s', rfl, hinv'⟩

end Loops

end Standstill
end Turnstile
