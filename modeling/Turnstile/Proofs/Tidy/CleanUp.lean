import Turnstile.Blocking
import Turnstile.Cooperative
import Turnstile.Proofs.CleanUp
import Turnstile.Proofs.Redis.Expiry
import Turnstile.Proofs.Tidy.Basic
import Turnstile.Proofs.Vigil.Basic

/-!
# Two ways to clean up

A clean-up removes the head of a queue and renews the expiry.  A blocking caller does one after the
other, a cooperative one does both side by side, and where nothing fails both leave the same keys
and end in the same way.

The two commands commute.  The last head goes together with its key and its deadline, whether or not
the deadline was renewed before; and a deadline is never renewed to a time at which the key is gone,
because no expiry is below one second.

## Main definitions

* `Tidy.Stages` - the keys that are left by a removal and a renewal in either order.

## Main statements

* `Tidy.cleanUp_in_any_order` - both clean-ups leave the same keys, whatever is kept under the key.
-/

namespace Turnstile
namespace Tidy

open Redis

universe u v

variable {τ : Type} [Seconds τ]

/-!
## The keys
-/

/-- What a removal of the head is told: texts, or that there is no list. -/
inductive Handed : Bool → Except (Failure τ) (Option (List Item)) → Prop where
  | texts {popped : Option (List Item)} {ids : List String}
      (decoded : (Queue.decodeItems (popped.getD []) : Except (Failure τ) _) = .ok ids) :
      Handed false (.ok popped)
  | refused : Handed true (.error (.client .wrongType))

def refusal (key : String) : Failure τ :=
  .semaphore (.storeCommand "LPOP" key ClientError.wrongType.message) (some (.client .wrongType))

def outcome (key : String) (refused : Bool) : Except (Failure τ) Unit :=
  if refused then .error (refusal key) else .ok ()

/-- The keys of a server by whether a head was removed and whether the expiry was renewed. -/
structure Stages (now : τ) (ticket : Ticket τ) (refused : Bool)
    (stage : Bool → Bool → Keyspace τ) : Prop where
  pops : ∀ renewed decodes,
    ((stage false renewed).run decodes now (.lpop ticket.queueKey 1)).2 = stage true renewed ∧
      Handed refused ((stage false renewed).run decodes now (.lpop ticket.queueKey 1)).1.reply
  renews : ∀ popped decodes,
    ((stage popped false).run decodes now (.expire ticket.queueKey ticket.expiry)).2 =
        stage popped true ∧
      ∃ held, ((stage popped false).run decodes now
        (.expire ticket.queueKey ticket.expiry)).1.reply = .ok held

/-!
## Requests
-/

section Requests

variable {Φ : Type u} {Ψ : Type v} {now : τ} {view : Ψ → Φ → Keyspace τ} {φ φ' : Φ}
  {failed : Φ → Failure τ → Prop} {queue : Queue}

theorem asks_same {r : (Premises τ).Request} {post : Φ → (Premises τ).Answer r → Prop}
    (h : ∀ keys answer keys', Answers now keys r answer keys' → keys' = keys ∧ post φ answer) :
    (beside now view).ask φ r post := by
  intro ψ answer keys' hanswers
  rcases h _ answer keys' hanswers with ⟨rfl, hpost⟩
  exact ⟨φ, rfl, hpost⟩

theorem keeps_connect {endpoint key : String} {done : Φ → Queue → Prop}
    (hdone : ∀ queue : Queue, queue.key = key → done φ queue) :
    Action.Keeps serveOnPremises (Service.connect endpoint key) (beside now view) φ done failed := by
  apply Turnstile.keeps_connect
  apply asks_same
  intro keys (client : Client) keys' hanswers
  cases hanswers
  constructor
  · rfl
  · apply asks_same
    intro keys (reply : Except (Failure τ) Unit) keys' hanswers
    rcases answers_call hanswers with ⟨decodes, rfl, rfl⟩
    exact ⟨rfl, hdone _ rfl⟩

theorem meets_close {post : Φ → Unit → Prop} (h : post φ ()) :
    ((Service.close queue).serve serveOnPremises).Meets
      (beside now view : Plan.Terms (Premises τ) Φ) φ post := by
  apply Turnstile.meets_close
  · apply asks_same
    intro keys answer keys' hanswers
    cases hanswers
    exact ⟨rfl, h⟩
  · exact h

theorem keeps_record {mode : Mode} {entry : Entry τ} {done : Φ → Unit → Prop} (h : done φ ()) :
    Action.Keeps serveOnPremises (Service.record mode entry) (beside now view) φ done failed := by
  apply Action.keeps_lift
  apply meets_ambient
  apply asks_same
  intro keys answer keys' hanswers
  cases hanswers
  exact ⟨rfl, h⟩

theorem keeps_pop {refused : Bool} {done : Φ → List String → Prop}
    (hpops : ∀ ψ decodes, ((view ψ φ).run decodes now (.lpop queue.key 1)).2 = view ψ φ' ∧
      Handed refused ((view ψ φ).run decodes now (.lpop queue.key 1)).1.reply)
    (hdone : refused = false → ∀ ids, done φ' ids)
    (hfailed : refused = true → failed φ' (refusal queue.key)) :
    Action.Keeps serveOnPremises (Service.pop queue 1) (beside now view) φ done failed := by
  apply keeps_pop_decoding
  intro ψ (reply : Except (Failure τ) (Option (List Item))) keys' hanswers
  rcases answers_call hanswers with ⟨decodes, hreply, rfl⟩
  rcases hpops ψ decodes with ⟨hkeys, hhanded⟩
  exists φ'
  constructor
  · exact hkeys
  · rw [← hreply] at hhanded
    cases hhanded with
    | @texts popped ids decoded =>
        show Action.Ends done failed φ' (Queue.decodeItems (popped.getD []))
        rw [decoded]
        exact hdone rfl ids
    | refused => exact hfailed rfl

theorem keeps_expire {seconds : Int} {done : Φ → Bool → Prop}
    (hrenews : ∀ ψ decodes, ((view ψ φ).run decodes now (.expire queue.key seconds)).2 = view ψ φ' ∧
      ∃ held, ((view ψ φ).run decodes now (.expire queue.key seconds)).1.reply = .ok held)
    (hdone : ∀ held, done φ' held) :
    Action.Keeps serveOnPremises (Service.expire queue seconds) (beside now view) φ done
      failed := by
  apply Turnstile.keeps_expire
  intro ψ (reply : Except (Failure τ) Bool) keys' hanswers
  rcases answers_call hanswers with ⟨decodes, hreply, rfl⟩
  rcases hrenews ψ decodes with ⟨hkeys, held, hheld⟩
  exists φ'
  constructor
  · exact hkeys
  · rw [hreply.trans hheld]
    exact hdone held

theorem keeps_keepError {step : Operation Queue τ Unit} {terms : Plan.Terms (Premises τ) Φ}
    {kept : Φ → Option (Failure τ) → Prop}
    (h : Action.Keeps serveOnPremises step terms φ (fun φ' _ => kept φ' none)
      fun φ' e => e.isA .semaphore = true ∧ kept φ' (some e)) :
    Action.Keeps serveOnPremises (Blocking.keepError step) terms φ kept failed := by
  apply Action.meets_run
  apply h.mono
  · intro φ' _ hkept
    exact hkept
  · intro φ' e he
    dsimp only
    rw [if_pos he.1]
    exact he.2

end Requests

/-!
## Clean-ups
-/

section CleanUps

variable {now : τ} {ticket : Ticket τ} {refused : Bool} {stage : Bool → Bool → Keyspace τ}

def alone (stage : Bool → Bool → Keyspace τ) (_ : Unit) (done : Bool × Bool) : Keyspace τ :=
  stage done.1 done.2

theorem Stages.keepPop (h : Stages now ticket refused stage) {queue : Queue}
    {failed : Bool × Bool → Failure τ → Prop} (hqueue : queue.key = ticket.queueKey) :
    Action.Keeps serveOnPremises
      (Blocking.keepError do
        let popped ← Service.pop queue 1
        Service.record .blocking (.popped popped ticket.queueKey))
      (beside now (alone stage)) (false, false)
      (fun done ofPop => done = (true, false) ∧
        ofPop = if refused then some (refusal ticket.queueKey) else none) failed := by
  have hpops : ∀ u decodes,
      ((alone stage u (false, false)).run decodes now (.lpop queue.key 1)).2 =
          alone stage u (true, false) ∧
        Handed refused
          ((alone stage u (false, false)).run decodes now (.lpop queue.key 1)).1.reply := by
    intro u decodes
    rw [hqueue]
    exact h.pops false decodes
  apply keeps_keepError
  apply Action.keeps_bind
  apply keeps_pop hpops
  · intro hrefused ids
    apply keeps_record
    rw [hrefused]
    exact ⟨rfl, rfl⟩
  · intro hrefused
    rw [hrefused, hqueue]
    exact ⟨rfl, rfl, rfl⟩

theorem Stages.keepExpire (h : Stages now ticket refused stage) {queue : Queue}
    {failed : Bool × Bool → Failure τ → Prop} (hqueue : queue.key = ticket.queueKey) :
    Action.Keeps serveOnPremises
      (Blocking.keepError do
        let _ ← Service.expire queue ticket.expiry)
      (beside now (alone stage)) (true, false)
      (fun done ofExpire => done = (true, true) ∧ ofExpire = none) failed := by
  have hrenews : ∀ u decodes,
      ((alone stage u (true, false)).run decodes now (.expire queue.key ticket.expiry)).2 =
          alone stage u (true, true) ∧
        ∃ held, ((alone stage u (true, false)).run decodes now
          (.expire queue.key ticket.expiry)).1.reply = .ok held := by
    intro u decodes
    rw [hqueue]
    exact h.renews true decodes
  apply keeps_keepError
  apply Action.keeps_bind
  apply keeps_expire hrenews
  intro held
  exact Action.keeps_pure ⟨rfl, rfl⟩

theorem Stages.blocking (h : Stages now ticket refused stage) :
    Action.Keeps serveOnPremises (Blocking.cleanUp ticket) (beside now (alone stage)) (false, false)
      (fun done _ => done = (true, true) ∧ refused = false)
      fun done e => done = (true, true) ∧ refused = true ∧ e = refusal ticket.queueKey := by
  apply Action.keeps_bind
  apply keeps_connect
  intro queue hqueue
  apply Action.keeps_bind
  apply Action.keeps_ensuring
  apply Action.keeps_bind
  apply (h.keepPop hqueue).mono
  · intro done ofPop hpopped
    rcases hpopped with ⟨rfl, rfl⟩
    apply Action.keeps_bind
    apply (h.keepExpire hqueue).mono
    · intro done ofExpire hrenewed
      rcases hrenewed with ⟨rfl, rfl⟩
      apply Action.keeps_pure
      apply meets_close
      cases refused with
      | false => exact Action.keeps_pure ⟨rfl, rfl⟩
      | true => exact Action.keeps_throw ⟨rfl, rfl, rfl⟩
    · intro done e hfailed
      exact hfailed
  · intro done e hfailed
    exact hfailed

theorem Stages.popHead (h : Stages now ticket refused stage) :
    Action.Keeps serveOnPremises (Cooperative.popHead ticket)
      (beside now fun renewed popped => stage popped renewed) false
      (fun popped _ => popped = true ∧ refused = false)
      fun popped e => popped = true ∧ refused = true ∧ e = refusal ticket.queueKey := by
  apply Action.keeps_bind
  apply keeps_connect
  intro queue hqueue
  have hpops := h.pops
  rw [← hqueue] at hpops ⊢
  apply Action.keeps_bind
  apply Action.keeps_ensuring
  apply keeps_pop hpops
  · intro hrefused ids
    apply meets_close
    apply keeps_record
    exact ⟨rfl, hrefused⟩
  · intro hrefused
    apply meets_close
    exact ⟨rfl, hrefused, rfl⟩

theorem Stages.renewExpiry (h : Stages now ticket refused stage) :
    Action.Keeps serveOnPremises (Cooperative.renewExpiry ticket)
      (beside now fun popped renewed => stage popped renewed) false
      (fun renewed _ => renewed = true) fun _ _ => False := by
  apply Action.keeps_bind
  apply keeps_connect
  intro queue hqueue
  have hrenews := h.renews
  rw [← hqueue] at hrenews
  apply Action.keeps_bind
  apply Action.keeps_ensuring
  apply keeps_expire hrenews
  intro held
  apply meets_close
  apply keeps_record
  rfl

/-!
## Straight clean-ups
-/

theorem renewExpiry_straight (ticket : Ticket τ) :
    (Cooperative.renewExpiry ticket : Operation Queue τ Unit).run.Straight := by
  apply Action.straight_bind
  · exact fun _ => trivial
  · intro queue
    apply Action.straight_bind
    · apply Action.straight_ensuring
      · exact fun _ => trivial
      · exact fun _ => trivial
    · exact fun _ _ => trivial

theorem popHead_straight (ticket : Ticket τ) :
    (Cooperative.popHead ticket : Operation Queue τ Unit).run.Straight := by
  apply Action.straight_bind
  · exact fun _ => trivial
  · intro queue
    apply Action.straight_bind
    · apply Action.straight_ensuring
      · exact fun _ => trivial
      · exact fun _ => trivial
    · exact fun _ _ => trivial

theorem keepError_straight {step : Operation Queue τ Unit} (h : step.run.Straight) :
    (Blocking.keepError step).run.Straight := by
  apply Plan.Straight.bind h
  intro ended
  cases ended with
  | ok _ => exact trivial
  | error e => exact trivial

theorem blocking_straight (ticket : Ticket τ) :
    (Blocking.cleanUp ticket : Operation Queue τ Unit).run.Straight := by
  apply Action.straight_bind
  · exact fun _ => trivial
  · intro queue
    apply Action.straight_bind
    · apply Action.straight_ensuring
      · apply Action.straight_bind
        · apply keepError_straight
          apply Action.straight_bind
          · exact fun _ => trivial
          · exact fun _ _ => trivial
        · intro ofPop
          apply Action.straight_bind
          · apply keepError_straight
            apply Action.straight_bind
            · exact fun _ => trivial
            · exact fun _ => trivial
          · exact fun _ => trivial
      · exact fun _ => trivial
    · intro kept
      cases kept with
      | none => exact trivial
      | some e => exact trivial

/-!
## Ends
-/

/-- Whatever is done first, both clean-ups come to these keys and this end. -/
def BothCome (now : τ) (ticket : Ticket τ) (keys final : Keyspace τ)
    (ending : Except (Failure τ) Unit) : Prop :=
  Comes now (fun keys' ended => keys' = final ∧ ended = ending) keys
      (onPremises (Blocking.cleanUp ticket)) ∧
    Comes now (fun keys' ended => keys' = final ∧ ended = ending) keys
      (onPremises (Cooperative.cleanUp ticket))

theorem Stages.blocking_comes (h : Stages now ticket refused stage) :
    Comes now
      (fun keys' ended => keys' = stage true true ∧ ended = outcome ticket.queueKey refused)
      (stage false false) (onPremises (Blocking.cleanUp ticket)) := by
  show Comes _ _ (alone stage () (false, false)) _
  apply comes_of_meets (onPremises_straight (blocking_straight ticket)) h.blocking
  intro done ended hended
  cases ended with
  | ok _ =>
      rcases hended with ⟨rfl, rfl⟩
      exact ⟨rfl, rfl⟩
  | error e =>
      rcases hended with ⟨rfl, rfl, rfl⟩
      exact ⟨rfl, rfl⟩

theorem Stages.cooperative_comes (h : Stages now ticket refused stage) :
    Comes now
      (fun keys' ended => keys' = stage true true ∧ ended = outcome ticket.queueKey refused)
      (stage false false) (onPremises (Cooperative.cleanUp ticket)) := by
  apply comes_both (onPremises_straight (renewExpiry_straight ticket))
    (onPremises_straight (popHead_straight ticket)) h.renewExpiry h.popHead
  intro renewed popped ofExpire ofPop hrenewed hpopped
  apply Comes.ended
  cases ofExpire with
  | error e => exact hrenewed.elim
  | ok _ =>
      rw [show renewed = true from hrenewed]
      cases ofPop with
      | ok _ =>
          rcases hpopped with ⟨rfl, rfl⟩
          exact ⟨rfl, rfl⟩
      | error e =>
          rcases hpopped with ⟨rfl, rfl, rfl⟩
          exact ⟨rfl, rfl⟩

theorem Stages.both_come (h : Stages now ticket refused stage) :
    BothCome now ticket (stage false false) (stage true true)
      (outcome ticket.queueKey refused) :=
  ⟨h.blocking_comes, h.cooperative_comes⟩

/-!
## What is kept under the key
-/

variable {duration : τ} {keys : Keyspace τ}

theorem stages_of_none (h : keys.list? ticket.queueKey = .ok none) :
    Stages now ticket false fun _ _ => keys := by
  constructor
  · intro _ decodes
    show (keys.lpop decodes ticket.queueKey 1).2 = keys ∧
      Handed false (keys.lpop decodes ticket.queueKey 1).1.reply
    rw [Keyspace.lpop_of_none h]
    exact ⟨rfl, .texts rfl⟩
  · intro _ decodes
    show (keys.expire now ticket.queueKey ticket.expiry).2 = keys ∧
      ∃ held, (keys.expire now ticket.queueKey ticket.expiry).1.reply = .ok held
    rw [Keyspace.expire_of_not_holds (Keyspace.holds_of_list?_none h)]
    exact ⟨rfl, false, rfl⟩

theorem stages_of_list {head : String} {rest : List String}
    (hcounts : Seconds.ofSeconds? ticket.expiry = some duration)
    (h : keys.list? ticket.queueKey = .ok (some ((head :: rest).map String.toUTF8))) :
    Stages now ticket false fun popped renewed =>
      let kept := if renewed then keys.setDeadline ticket.queueKey (now + duration) else keys
      if popped then kept.setItems ticket.queueKey (rest.map String.toUTF8) else kept := by
  have hexpire : keys.expire now ticket.queueKey ticket.expiry =
      (.read (.ok true), keys.setDeadline ticket.queueKey (now + duration)) :=
    Keyspace.expire_of_holds (Keyspace.holds_of_list?_some h) ticket.one_le_expiry hcounts
  constructor
  · intro renewed decodes
    have hpops : ∀ kept : Keyspace τ,
        kept.list? ticket.queueKey = .ok (some ((head :: rest).map String.toUTF8)) →
          (kept.lpop decodes ticket.queueKey 1).2 =
              kept.setItems ticket.queueKey (rest.map String.toUTF8) ∧
            Handed false (kept.lpop decodes ticket.queueKey 1).1.reply := by
      intro kept hkept
      rcases Keyspace.lpop_head hkept decodes with ⟨hkeys, popped, hreply, hdecoded⟩
      rw [hreply]
      exact ⟨hkeys, .texts hdecoded⟩
    cases renewed with
    | false => exact hpops keys h
    | true => exact hpops (keys.setDeadline ticket.queueKey (now + duration)) h
  · intro popped decodes
    cases popped with
    | false =>
        show (keys.expire now ticket.queueKey ticket.expiry).2 = _ ∧
          ∃ held, (keys.expire now ticket.queueKey ticket.expiry).1.reply = .ok held
        rw [hexpire]
        exact ⟨rfl, true, rfl⟩
    | true =>
        exact Keyspace.expire_setItems (Keyspace.not_mem_others_of_list?_ok h)
          ticket.one_le_expiry hcounts

theorem stages_of_other (hcounts : Seconds.ofSeconds? ticket.expiry = some duration)
    (h : keys.list? ticket.queueKey = .error .wrongType) :
    Stages now ticket true fun _ renewed =>
      if renewed then keys.setDeadline ticket.queueKey (now + duration) else keys := by
  have hexpire : keys.expire now ticket.queueKey ticket.expiry =
      (.read (.ok true), keys.setDeadline ticket.queueKey (now + duration)) :=
    Keyspace.expire_of_holds (Keyspace.holds_of_list?_error h) ticket.one_le_expiry hcounts
  constructor
  · intro renewed decodes
    have hrefuses : ∀ kept : Keyspace τ, kept.list? ticket.queueKey = .error .wrongType →
        (kept.lpop decodes ticket.queueKey 1).2 = kept ∧
          Handed true (kept.lpop decodes ticket.queueKey 1).1.reply := by
      intro kept hkept
      rw [Keyspace.lpop_of_error hkept]
      exact ⟨rfl, .refused⟩
    cases renewed with
    | false => exact hrefuses keys h
    | true => exact hrefuses (keys.setDeadline ticket.queueKey (now + duration)) h
  · intro _ decodes
    show (keys.expire now ticket.queueKey ticket.expiry).2 = _ ∧
      ∃ held, (keys.expire now ticket.queueKey ticket.expiry).1.reply = .ok held
    rw [hexpire]
    exact ⟨rfl, true, rfl⟩

/-- Both clean-ups change nothing where nothing is kept.  They remove the head of a list and renew
its expiry, and the last head goes with its key and its deadline.  From what is no list nothing can
be removed. -/
theorem cleanUp_in_any_order (ticket : Ticket τ) (now : τ) (keys : Keyspace τ)
    (hcounts : Seconds.ofSeconds? ticket.expiry = some duration) :
    (keys.list? ticket.queueKey = .ok none → BothCome now ticket keys keys (.ok ())) ∧
      (∀ head rest,
        keys.list? ticket.queueKey = .ok (some ((head :: rest).map String.toUTF8)) →
          BothCome now ticket keys
            (if rest = [] then keys.drop ticket.queueKey
            else (keys.setItems ticket.queueKey (rest.map String.toUTF8)).setDeadline
              ticket.queueKey (now + duration)) (.ok ())) ∧
      (keys.list? ticket.queueKey = .error .wrongType →
        BothCome now ticket keys (keys.setDeadline ticket.queueKey (now + duration))
          (.error (.semaphore
            (.storeCommand "LPOP" ticket.queueKey ClientError.wrongType.message)
            (some (.client .wrongType))))) := by
  constructor
  · intro hnone
    exact (stages_of_none hnone).both_come
  · constructor
    · intro head rest hlist
      have hstages : Stages now ticket false _ := stages_of_list hcounts hlist
      have hcome := hstages.both_come
      cases rest with
      | nil =>
          rw [if_pos rfl, ← Keyspace.drop_setDeadline (now + duration)]
          exact hcome
      | cons next rest => exact hcome
    · intro hother
      exact (stages_of_other hcounts hother).both_come

/-- A gate at the fifth second: its queue is empty, or two have entered, or it is no queue. -/
theorem cleanUp_in_any_order_at_gate : ∃ duration : Float,
    Seconds.ofSeconds? Vigil.lateTicket.expiry = some duration ∧
      BothCome 5 Vigil.lateTicket {} {} (.ok ()) ∧
      BothCome 5 Vigil.lateTicket Vigil.busyGate
        ((Vigil.busyGate.setItems Vigil.lateTicket.queueKey ["2".toUTF8]).setDeadline
          Vigil.lateTicket.queueKey (5 + duration)) (.ok ()) ∧
      BothCome 5 Vigil.lateTicket { others := [Vigil.lateTicket.queueKey] }
        (({ others := [Vigil.lateTicket.queueKey] } : Keyspace Float).setDeadline
          Vigil.lateTicket.queueKey (5 + duration))
        (.error (.semaphore
          (.storeCommand "LPOP" Vigil.lateTicket.queueKey ClientError.wrongType.message)
          (some (.client .wrongType)))) := by
  have hcounts : Seconds.ofSeconds? Vigil.lateTicket.expiry = some (Float.ofInt 30) :=
    if_neg (by decide +kernel)
  have hempty := (cleanUp_in_any_order Vigil.lateTicket 5 {} hcounts).1 rfl
  have hbusy := (cleanUp_in_any_order Vigil.lateTicket 5 Vigil.busyGate hcounts).2.1 "1" ["2"] rfl
  have hother := (cleanUp_in_any_order Vigil.lateTicket 5
    { others := [Vigil.lateTicket.queueKey] } hcounts).2.2 rfl
  exact ⟨_, hcounts, hempty, hbusy, hother⟩

end CleanUps

end Tidy
end Turnstile
