import Turnstile.Proofs.Site.Basic
import Turnstile.Proofs.Tidy.CleanUp

/-!
# Clean-ups where anything can go wrong

A clean-up removes the head of a queue and renews its expiry, and either can fail in any way.  A
cooperative clean-up does both side by side.  Neither leg heeds the other: each does what it would do
alone, both are awaited, and a failure of either is raised.

A blocking clean-up does one after the other.  It keeps an error of the semaphore until the end, but
whatever else comes of the removal ends it at once, so that the expiry is not renewed.  This is what
becomes of a removal that hands out an item that is no text, although the item is gone.

## Main definitions

* `Attempt` - what a leg has sent, and how it ended.
* `InTurn` and `Abreast` - what a blocking and a cooperative clean-up have sent, and how they ended.

## Main statements

* `Site.no_failure_is_swallowed` - a clean-up returns just when all that it sent has succeeded.
* `Site.expiry_withheld_iff` - when a blocking clean-up does not renew the expiry.
-/

namespace Turnstile

open Redis

variable {τ : Type}

/-- The failure of a leg as it is raised.  A leg that was interrupted by itself is named. -/
def Failure.ofLeg (leg : String) : Failure τ → Failure τ
  | .interrupted => .semaphore (.legInterrupted leg) (some .interrupted)
  | e => e

theorem Cooperative.joined_error (leg : String) (e : Failure τ) :
    joined leg (.error e) = .error (e.ofLeg leg) := by
  cases e <;> rfl

theorem Cooperative.joined_ok_iff {ofExpire ofPop : Except (Failure τ) Unit} :
    (do
      joined "expire" ofExpire
      joined "lpop" ofPop) = .ok () ↔ ofExpire = .ok () ∧ ofPop = .ok () := by
  cases ofExpire with
  | error e =>
      rw [joined_error]
      exact ⟨nofun, fun h => nomatch h.1⟩
  | ok _ =>
      cases ofPop with
      | error e =>
          rw [joined_error]
          exact ⟨nofun, fun h => nomatch h.2⟩
      | ok _ => exact ⟨fun _ => ⟨rfl, rfl⟩, fun _ => rfl⟩

def Dispatch.ping (took : Bool) (told : Except (Failure τ) Unit) : Dispatch τ :=
  ⟨.ping, took, told⟩

@[simp]
theorem Dispatch.command_ping (took : Bool) (told : Except (Failure τ) Unit) :
    (ping took told).command = .ping :=
  rfl

@[simp]
theorem Dispatch.succeeds_ping (took : Bool) (told : Except (Failure τ) Unit) :
    (ping took told).succeeds = told.isOk :=
  rfl

/-- Whether a use of the store ends with something else than an error of the semaphore: with items
that are no texts, or with a failure that is not one of the store. -/
def Dispatch.breaks : Dispatch τ → Bool
  | ⟨.lpop .., _, .ok popped⟩ =>
      !(Queue.decodeItems (τ := τ) ((popped : Option (List Item)).getD [])).isOk
  | ⟨_, _, .ok _⟩ => false
  | ⟨_, _, .error (.client error)⟩ => decide (error.kind.family = .outside)
  | ⟨_, _, .error e⟩ => !e.isA .semaphore

theorem isA_asStoreFailure (label command key : String) (e : Failure τ) :
    (asStoreFailure label command key e).isA .semaphore =
      match e with
      | .client error => !decide (error.kind.family = .outside)
      | e => e.isA .semaphore := by
  cases e with
  | client error =>
      dsimp only [asStoreFailure]
      cases error.kind.family <;> rfl
  | _ => rfl

theorem Dispatch.breaks_iff (dispatch : Dispatch τ) (label key : String) :
    dispatch.breaks = true ↔
      ∃ e, dispatch.ended label key = .error e ∧ e.isA .semaphore = false := by
  rcases dispatch with ⟨command, took, told⟩
  cases told with
  | error e =>
      have hended : (Dispatch.mk command took (.error e)).ended label key =
          .error (asStoreFailure label command.verb.name key e) := by
        cases command <;> rfl
      rw [hended]
      simp only [Except.error.injEq, exists_eq_left', isA_asStoreFailure]
      cases e <;> cases command <;> simp [breaks]
  | ok reply =>
      cases command with
      | lpop key' count =>
          have hended : (Dispatch.mk (.lpop key' count) took (.ok reply)).ended label key =
              (Queue.decodeItems (τ := τ) (Option.getD reply [])).map fun _ => () := rfl
          rw [hended]
          cases hids : Queue.decodeItems (τ := τ) (Option.getD reply []) with
          | ok ids => simp [breaks, hids, Except.map, Except.isOk, Except.toBool]
          | error e =>
              cases decodeItems_error hids
              simp [breaks, hids, Except.map, Except.isOk, Except.toBool, Failure.isA]
      | _ => simp [breaks, ended]

theorem Dispatch.kept_of_not_breaks {dispatch : Dispatch τ} {label key : String} {e : Failure τ}
    (h : dispatch.breaks = false) (he : dispatch.ended label key = .error e) :
    e.isA .semaphore = true := by
  cases hsemaphore : e.isA .semaphore with
  | true => rfl
  | false =>
      rw [(dispatch.breaks_iff label key).mpr ⟨e, he, hsemaphore⟩] at h
      cases h

variable [Seconds τ]

/-!
## What was sent
-/

/-- What a leg has sent that has one command to send, and how it ended. -/
inductive Attempt (ticket : Ticket τ) (command : Command) :
    List (Dispatch τ) → Except (Failure τ) Unit → Prop where
  | unreached (took : Bool) (e : Failure τ) :
      Attempt ticket command [.ping took (.error e)]
        (.error (asStoreFailure ticket.endpoint "PING" ticket.queueKey e))
  | tried (took : Bool) {dispatch : Dispatch τ} {label : String} {ended : Except (Failure τ) Unit}
      (sends : dispatch.command = command) (ends : dispatch.ended label ticket.queueKey = ended) :
      Attempt ticket command [.ping took (.ok ()), dispatch] ended

def Blocking.settled : Except (Failure τ) Unit → Except (Failure τ) Unit → Except (Failure τ) Unit
  | .error e, .error e' => .error (if e'.isA .semaphore then e else e')
  | .error e, .ok () => .error e
  | .ok (), ofExpire => ofExpire

omit [Seconds τ] in
theorem Blocking.settled_of_kept {e : Failure τ} {ofExpire : Except (Failure τ) Unit}
    (h : ∀ e', ofExpire = .error e' → e'.isA .semaphore = true) :
    settled (.error e) ofExpire = .error e := by
  cases ofExpire with
  | ok _ => rfl
  | error e' => rw [settled, if_pos (h e' rfl)]

omit [Seconds τ] in
theorem Blocking.settled_of_foreign {ofPop : Except (Failure τ) Unit} {e : Failure τ}
    (h : e.isA .semaphore = false) : settled ofPop (.error e) = .error e := by
  cases ofPop with
  | ok _ => rfl
  | error e' => rw [settled, h, if_neg (by decide)]

/-- What a blocking clean-up has sent, and how it ended. -/
inductive InTurn (ticket : Ticket τ) : List (Dispatch τ) → Except (Failure τ) Unit → Prop where
  | unreached (took : Bool) (e : Failure τ) :
      InTurn ticket [.ping took (.error e)]
        (.error (asStoreFailure ticket.endpoint "PING" ticket.queueKey e))
  | stopped (took : Bool) {removal : Dispatch τ} {label : String} {e : Failure τ}
      (removes : removal.command = .lpop ticket.queueKey 1)
      (fails : removal.ended label ticket.queueKey = .error e) (foreign : e.isA .semaphore = false) :
      InTurn ticket [.ping took (.ok ()), removal] (.error e)
  | through (took : Bool) {removal renewal : Dispatch τ} {label : String}
      {ofPop ofExpire : Except (Failure τ) Unit} (removes : removal.command = .lpop ticket.queueKey 1)
      (renews : renewal.command = .expire ticket.queueKey ticket.expiry)
      (popEnds : removal.ended label ticket.queueKey = ofPop)
      (expireEnds : renewal.ended label ticket.queueKey = ofExpire)
      (kept : ∀ e, ofPop = .error e → e.isA .semaphore = true) :
      InTurn ticket [.ping took (.ok ()), removal, renewal] (Blocking.settled ofPop ofExpire)

/-- What the legs of a cooperative clean-up have sent, and how it ended.  If it was interrupted the
ends of the legs are lost. -/
inductive Abreast (ticket : Ticket τ) (cut : Prop) (renewal removal : List (Dispatch τ))
    (ofExpire ofPop : Except (Failure τ) Unit) : Except (Failure τ) Unit → Prop where
  | joined (renews : Attempt ticket (.expire ticket.queueKey ticket.expiry) renewal ofExpire)
      (removes : Attempt ticket (.lpop ticket.queueKey 1) removal ofPop) :
      Abreast ticket cut renewal removal ofExpire ofPop (do
        Cooperative.joined "expire" ofExpire
        Cooperative.joined "lpop" ofPop)
  | parted (renews : Attempt ticket (.expire ticket.queueKey ticket.expiry) renewal ofExpire)
      (removes : Attempt ticket (.lpop ticket.queueKey 1) removal ofPop) (interrupted : cut) :
      Abreast ticket cut renewal removal ofExpire ofPop (.error .interrupted)

namespace Site

def logs : Plan.Terms (Premises τ) (List (Dispatch τ)) where
  ask sent r post :=
    match r, post with
    | .inl (.call _ command), post =>
        ∀ took (told : Except (Failure τ) command.Reply),
          post (sent ++ [⟨command, took, told⟩]) told
    | _, post => ∀ answer, post sent answer
  ask_mono {sent r post post'} hpost h := by
    rcases r with (endpoint | ⟨client, command⟩ | client) | r
    · exact fun answer => hpost _ _ (h answer)
    · exact fun took told => hpost _ _ (h took told)
    · exact fun answer => hpost _ _ (h answer)
    · exact fun answer => hpost _ _ (h answer)
  interruptible := False

def Since (others : Keyspace τ → Keyspace τ → Prop) (origin : Site τ)
    (left right : List (Dispatch τ)) (site : Site τ) : Prop :=
  ∃ sent, Merges left right sent ∧ site.sent = origin.sent ++ sent ∧
    Serves others origin.keys sent site.keys

variable {others : Keyspace τ → Keyspace τ → Prop} {origin site : Site τ} {cut : Prop}
  {ticket : Ticket τ} {sent left right : List (Dispatch τ)} {ended : Except (Failure τ) Unit}

theorem Since.sends {others : Keyspace τ → Keyspace τ → Prop} {before after : Keyspace τ}
    {command : Command} {took : Bool} {told : Except (Failure τ) command.Reply}
    (h : Since others origin left right site) (arrives : before = site.keys ∨ others site.keys before)
    (executed : Keyspace.Executed (fun _ => True) before command took told after) :
    Since others origin (left ++ [⟨command, took, told⟩]) right
        ⟨after, site.sent ++ [⟨command, took, told⟩]⟩ ∧
      Since others origin left (right ++ [⟨command, took, told⟩])
        ⟨after, site.sent ++ [⟨command, took, told⟩]⟩ := by
  rcases h with ⟨sent, hmerges, hsent, hserves⟩
  have happend : site.sent ++ [Dispatch.mk command took told] =
      origin.sent ++ (sent ++ [⟨command, took, told⟩]) := by
    rw [hsent, List.append_assoc]
  exact ⟨⟨_, .left _ hmerges, happend, hserves.sends arrives executed⟩,
    ⟨_, .right _ hmerges, happend, hserves.sends arrives executed⟩⟩

theorem logs_reckons {stands : List (Dispatch τ) → Site τ → Prop}
    (hsends : ∀ {sent site before after command took} {told : Except (Failure τ) command.Reply},
      stands sent site → (before = site.keys ∨ others site.keys before) →
        Keyspace.Executed (fun _ => True) before command took told after →
          stands (sent ++ [⟨command, took, told⟩]) ⟨after, site.sent ++ [⟨command, took, told⟩]⟩) :
    logs.Reckons (Answers others) stands := by
  intro sent site site' r answer post hstands hask hanswers
  cases hanswers with
  | dial endpoint client => exact ⟨sent, hstands, hask _⟩
  | hangUp client => exact ⟨sent, hstands, hask _⟩
  | ambient r answer => exact ⟨sent, hstands, hask _⟩
  | call client arrives executed => exact ⟨_, hsends hstands arrives executed, hask _ _⟩

theorem logs_reckons_left (right : List (Dispatch τ)) :
    logs.Reckons (Answers others) fun left => Since others origin left right := by
  apply logs_reckons
  intro left site before after command took told hsince arrives executed
  exact (hsince.sends arrives executed).1

theorem logs_reckons_right (left : List (Dispatch τ)) :
    logs.Reckons (Answers others) (Since others origin left) := by
  apply logs_reckons
  intro right site before after command took told hsince arrives executed
  exact (hsince.sends arrives executed).2

theorem Since.refl (others : Keyspace τ → Keyspace τ → Prop) (origin : Site τ) :
    Since others origin [] [] origin :=
  ⟨[], .nil, (List.append_nil _).symm, .nil⟩

/-!
## Requests
-/

section Requests

variable {queue : Queue} {failed : List (Dispatch τ) → Failure τ → Prop}

theorem keeps_connect {endpoint key : String} {done : List (Dispatch τ) → Queue → Prop}
    (hdone : ∀ took (queue : Queue), queue.key = key → done (sent ++ [.ping took (.ok ())]) queue)
    (hfailed : ∀ took e, failed (sent ++ [.ping took (.error e)])
      (asStoreFailure endpoint "PING" key e)) :
    Action.Keeps serveOnPremises (Service.connect endpoint key) logs sent done failed := by
  apply Turnstile.keeps_connect
  intro client took told
  cases told with
  | ok _ => exact hdone took _ rfl
  | error e => exact ⟨fun _ => hfailed took e, hfailed took e⟩

theorem keeps_pop {done : List (Dispatch τ) → List String → Prop}
    (hdone : ∀ removal ids, removal.command = .lpop queue.key 1 →
      removal.ended queue.label queue.key = .ok () → done (sent ++ [removal]) ids)
    (hfailed : ∀ removal e, removal.command = .lpop queue.key 1 →
      removal.ended queue.label queue.key = .error e → failed (sent ++ [removal]) e) :
    Action.Keeps serveOnPremises (Service.pop queue 1) logs sent done failed := by
  apply keeps_pop_decoding
  intro took told
  cases told with
  | error e => exact hfailed ⟨.lpop queue.key 1, took, .error e⟩ _ rfl rfl
  | ok popped =>
      show Action.Ends done failed _ (Queue.decodeItems (Option.getD popped []))
      have hended : (Dispatch.mk (.lpop queue.key 1) took (.ok popped) : Dispatch τ).ended
          queue.label queue.key = (Queue.decodeItems (Option.getD popped [])).map fun _ => () := rfl
      cases hids : Queue.decodeItems (τ := τ) (Option.getD popped []) with
      | ok ids =>
          rw [hids] at hended
          exact hdone _ ids rfl hended
      | error e =>
          rw [hids] at hended
          exact hfailed _ e rfl hended

theorem keeps_expire {seconds : Int} {done : List (Dispatch τ) → Bool → Prop}
    (hdone : ∀ renewal held, renewal.command = .expire queue.key seconds →
      renewal.ended queue.label queue.key = .ok () → done (sent ++ [renewal]) held)
    (hfailed : ∀ renewal e, renewal.command = .expire queue.key seconds →
      renewal.ended queue.label queue.key = .error e → failed (sent ++ [renewal]) e) :
    Action.Keeps serveOnPremises (Service.expire queue seconds) logs sent done failed := by
  apply Turnstile.keeps_expire
  intro took told
  cases told with
  | error e => exact hfailed ⟨.expire queue.key seconds, took, .error e⟩ _ rfl rfl
  | ok held => exact hdone ⟨.expire queue.key seconds, took, .ok held⟩ held rfl rfl

theorem meets_close {post : List (Dispatch τ) → Unit → Prop} (h : post sent ()) :
    ((Service.close queue).serve serveOnPremises).Meets logs sent post :=
  Turnstile.meets_close (fun _ => h) h

theorem keeps_record {mode : Mode} {entry : Entry τ} {done : List (Dispatch τ) → Unit → Prop}
    (h : done sent ()) :
    Action.Keeps serveOnPremises (Service.record mode entry) logs sent done failed :=
  Action.keeps_lift (meets_ambient fun _ => h)

end Requests

/-!
## Legs
-/

theorem popHead_attempts :
    Action.Keeps serveOnPremises (Cooperative.popHead ticket) logs []
      (fun sent _ => Attempt ticket (.lpop ticket.queueKey 1) sent (.ok ()))
      fun sent e => Attempt ticket (.lpop ticket.queueKey 1) sent (.error e) := by
  apply Action.keeps_bind
  apply keeps_connect
  · intro took queue hqueue
    rw [← hqueue]
    apply Action.keeps_bind
    apply Action.keeps_ensuring
    apply keeps_pop
    · intro removal ids hsends hended
      apply meets_close
      apply keeps_record
      rw [hqueue] at hsends hended ⊢
      exact .tried took hsends hended
    · intro removal e hsends hended
      apply meets_close
      rw [hqueue] at hsends hended ⊢
      exact .tried took hsends hended
  · intro took e
    exact .unreached took e

theorem renewExpiry_attempts :
    Action.Keeps serveOnPremises (Cooperative.renewExpiry ticket) logs []
      (fun sent _ => Attempt ticket (.expire ticket.queueKey ticket.expiry) sent (.ok ()))
      fun sent e => Attempt ticket (.expire ticket.queueKey ticket.expiry) sent (.error e) := by
  apply Action.keeps_bind
  apply keeps_connect
  · intro took queue hqueue
    apply Action.keeps_bind
    apply Action.keeps_ensuring
    apply keeps_expire
    · intro renewal held hsends hended
      apply meets_close
      apply keeps_record
      rw [hqueue] at hsends hended
      exact .tried took hsends hended
    · intro renewal e hsends hended
      apply meets_close
      rw [hqueue] at hsends hended
      exact .tried took hsends hended
  · intro took e
    exact .unreached took e

/-- Both legs come to an end, whatever came of the other one. -/
theorem cooperative_concludes (others : Keyspace τ → Keyspace τ → Prop) (cut : Prop)
    (ticket : Ticket τ) (origin : Site τ) :
    Plan.Concludes (Answers others) cut
      (fun site ended => ∃ renewal removal ofExpire ofPop, Since others origin renewal removal site ∧
        Abreast ticket cut renewal removal ofExpire ofPop ended)
      origin (onPremises (Cooperative.cleanUp ticket)) := by
  have hrenewal := onPremises_straight (Tidy.renewExpiry_straight ticket)
  have hremoval := onPremises_straight (Tidy.popHead_straight ticket)
  apply Plan.concludes_both exists_answers logs_reckons_left logs_reckons_right
    (Since.refl others origin) hrenewal hremoval renewExpiry_attempts popHead_attempts
  intro renewal removal site ofExpire ofPop hsince hrenews hremoves
  have hrenews' : Attempt ticket (.expire ticket.queueKey ticket.expiry) renewal ofExpire := by
    cases ofExpire <;> exact hrenews
  have hremoves' : Attempt ticket (.lpop ticket.queueKey 1) removal ofPop := by
    cases ofPop <;> exact hremoves
  constructor
  · exact .ended ⟨_, _, _, _, hsince, .joined hrenews' hremoves'⟩
  · intro hcut
    exact .ended ⟨_, _, _, _, hsince, .parted hrenews' hremoves' hcut⟩

/-!
## One after the other
-/

theorem keeps_keepError {step : Operation Queue τ Unit}
    {kept : List (Dispatch τ) → Option (Failure τ) → Prop}
    {failed : List (Dispatch τ) → Failure τ → Prop}
    (h : Action.Keeps serveOnPremises step logs sent (fun sent' _ => kept sent' none) fun sent' e =>
      (e.isA .semaphore = true → kept sent' (some e)) ∧
        (e.isA .semaphore = false → failed sent' e)) :
    Action.Keeps serveOnPremises (Blocking.keepError step) logs sent kept failed := by
  apply Action.meets_run
  apply h.mono
  · intro sent' _ hkept
    exact hkept
  · intro sent' e he
    cases hsemaphore : e.isA .semaphore with
    | true =>
        simp only [hsemaphore]
        exact he.1 hsemaphore
    | false =>
        simp only [hsemaphore]
        exact he.2 hsemaphore

theorem keepRenewal_inTurn {queue : Queue} {took : Bool} {removal : Dispatch τ}
    {ofPop : Option (Failure τ)} (hqueue : queue.key = ticket.queueKey)
    (removes : removal.command = .lpop ticket.queueKey 1)
    (popEnds : removal.ended queue.label ticket.queueKey = ofPop.elim (.ok ()) .error)
    (kept : ∀ e, ofPop = some e → e.isA .semaphore = true) :
    Action.Keeps serveOnPremises
      (do
        let ofExpire ← Blocking.keepError do
          let _ ← Service.expire queue ticket.expiry
        pure (ofPop.or ofExpire))
      logs [.ping took (.ok ()), removal]
      (fun sent kept? => InTurn ticket sent (kept?.elim (.ok ()) .error))
      fun sent e => InTurn ticket sent (.error e) := by
  have hthrough : ∀ renewal ofExpire, renewal.command = .expire ticket.queueKey ticket.expiry →
      renewal.ended queue.label ticket.queueKey = ofExpire →
        InTurn ticket [.ping took (.ok ()), removal, renewal]
          (Blocking.settled (ofPop.elim (.ok ()) .error) ofExpire) := by
    intro renewal ofExpire renews expireEnds
    refine .through took removes renews popEnds expireEnds ?_
    cases ofPop with
    | none => intro e he; cases he
    | some e => intro e' he'; cases he'; exact kept e rfl
  apply Action.keeps_bind
  apply keeps_keepError
  apply Action.keeps_bind
  apply keeps_expire
  · intro renewal held hsends hended
    rw [hqueue] at hsends hended
    have hended := hthrough renewal _ hsends hended
    cases ofPop <;> exact hended
  · intro renewal e hsends hended
    rw [hqueue] at hsends hended
    have hended := hthrough renewal _ hsends hended
    constructor
    · intro hsemaphore
      cases ofPop with
      | none => exact hended
      | some e' =>
          rw [Option.elim, Blocking.settled, if_pos hsemaphore] at hended
          exact hended
    · intro hforeign
      rw [Blocking.settled_of_foreign hforeign] at hended
      exact hended

theorem steps_inTurn {queue : Queue} {took : Bool} (hqueue : queue.key = ticket.queueKey) :
    Action.Keeps serveOnPremises
      (do
        let ofPop ← Blocking.keepError do
          let popped ← Service.pop queue 1
          Service.record .blocking (.popped popped ticket.queueKey)
        let ofExpire ← Blocking.keepError do
          let _ ← Service.expire queue ticket.expiry
        pure (ofPop.or ofExpire))
      logs [.ping took (.ok ())]
      (fun sent kept? => InTurn ticket sent (kept?.elim (.ok ()) .error))
      fun sent e => InTurn ticket sent (.error e) := by
  apply Action.keeps_bind
  apply keeps_keepError
  apply Action.keeps_bind
  apply keeps_pop
  · intro removal ids hsends hended
    apply keeps_record
    rw [hqueue] at hsends hended
    refine keepRenewal_inTurn hqueue hsends hended ?_
    intro e he
    cases he
  · intro removal e hsends hended
    rw [hqueue] at hsends hended
    constructor
    · intro hsemaphore
      refine keepRenewal_inTurn hqueue hsends hended ?_
      intro e' he'
      cases he'
      exact hsemaphore
    · intro hforeign
      exact .stopped took hsends hended hforeign

theorem cleanUp_inTurn :
    Action.Keeps serveOnPremises (Blocking.cleanUp ticket) logs []
      (fun sent _ => InTurn ticket sent (.ok ())) fun sent e => InTurn ticket sent (.error e) := by
  apply Action.keeps_bind
  apply keeps_connect
  · intro took queue hqueue
    apply Action.keeps_bind
    apply Action.keeps_ensuring
    apply (steps_inTurn hqueue).mono
    · intro sent kept? hended
      apply meets_close
      cases kept? <;> exact hended
    · intro sent e hended
      exact meets_close hended
  · intro took e
    exact .unreached took e

theorem blocking_concludes (others : Keyspace τ → Keyspace τ → Prop) (cut : Prop)
    (ticket : Ticket τ) (origin : Site τ) :
    Plan.Concludes (Answers others) cut
      (fun site ended => ∃ sent, Since others origin [] sent site ∧ InTurn ticket sent ended)
      origin (onPremises (Blocking.cleanUp ticket)) := by
  have hstraight := onPremises_straight (Tidy.blocking_straight ticket)
  apply (Plan.concludes_of_meets exists_answers (logs_reckons_right []) (Since.refl others origin)
    hstraight cleanUp_inTurn).mono
  intro site ended h
  rcases h with ⟨sent, hsince, hended⟩
  refine ⟨sent, hsince, ?_⟩
  cases ended <;> exact hended

/-!
## What is known of a clean-up
-/

omit [Seconds τ] in
theorem took?_of_command {dispatch : Dispatch τ} {command : Command} {verb : Command.Verb}
    (hcommand : dispatch.command = command) (hverb : command.verb ≠ verb) :
    dispatch.took? verb = false := by
  rw [Dispatch.took?, hcommand, decide_eq_false hverb, Bool.false_and]

omit [Seconds τ] in
theorem took?_le {dispatch : Dispatch τ} {command : Command} (verb : Command.Verb)
    (hcommand : dispatch.command = command) :
    (if dispatch.took? verb then 1 else 0) ≤ if command.verb = verb then 1 else 0 := by
  by_cases hverb : command.verb = verb
  · rw [if_pos hverb]
    split <;> omega
  · rw [took?_of_command hcommand hverb]
    exact Nat.zero_le _

theorem lpop_expire_distinct (ticket : Ticket τ) (verb : Command.Verb) :
    (if (Command.lpop ticket.queueKey 1).verb = verb then 1 else 0) +
      (if (Command.expire ticket.queueKey ticket.expiry).verb = verb then 1 else 0) ≤ 1 := by
  cases verb <;> simp [Command.verb]

theorem attempt_once {command : Command} {verb : Command.Verb} (hverb : verb ≠ .ping)
    (h : Attempt ticket command sent ended) :
    sent.countP (Dispatch.took? verb) ≤ if command.verb = verb then 1 else 0 := by
  have hping : ∀ took told, (Dispatch.ping took told : Dispatch τ).took? verb = false :=
    fun _ _ => took?_of_command rfl hverb.symm
  cases h with
  | unreached took e => simp [hping]
  | tried took sends ends => simpa [List.countP_cons, hping] using took?_le verb sends

theorem inTurn_once {verb : Command.Verb} (hverb : verb ≠ .ping) (h : InTurn ticket sent ended) :
    sent.countP (Dispatch.took? verb) ≤ 1 := by
  have hping : ∀ took told, (Dispatch.ping took told : Dispatch τ).took? verb = false :=
    fun _ _ => took?_of_command rfl hverb.symm
  cases h with
  | unreached took e => exact List.countP_le_length
  | stopped took removes fails foreign =>
      rw [List.countP_cons, hping]
      exact List.countP_le_length
  | through took removes renews popEnds expireEnds kept =>
      have hremoval := took?_le verb removes
      have hrenewal := took?_le verb renews
      have hdistinct := lpop_expire_distinct ticket verb
      simp only [List.countP_cons, List.countP_nil, hping, Bool.false_eq_true, if_false]
      omega

theorem attempt_sweeps {command : Command} (hcommand : Sweeps ticket command)
    (h : Attempt ticket command sent ended) : ∀ dispatch ∈ sent, Sweeps ticket dispatch.command := by
  intro dispatch hmem
  cases h with
  | unreached took e =>
      rw [List.mem_singleton.mp hmem]
      exact Or.inl rfl
  | tried took sends ends =>
      rcases List.mem_cons.mp hmem with rfl | hmem
      · exact Or.inl rfl
      · rw [List.mem_singleton.mp hmem, sends]
        exact hcommand

theorem inTurn_sweeps (h : InTurn ticket sent ended) :
    ∀ dispatch ∈ sent, Sweeps ticket dispatch.command := by
  cases h with
  | unreached took e => simp [Sweeps]
  | stopped took removes fails foreign => simp [Sweeps, removes]
  | through took removes renews popEnds expireEnds kept => simp [Sweeps, removes, renews]

theorem attempt_ok_iff {command : Command} (h : Attempt ticket command sent ended) :
    ended = .ok () ↔ ∀ dispatch ∈ sent, dispatch.succeeds = true := by
  cases h with
  | unreached took e => simp [Except.isOk, Except.toBool]
  | tried took sends ends =>
      rw [← ends, Dispatch.ended_eq_ok_iff]
      simp [Except.isOk, Except.toBool]

theorem attempt_commands {command : Command} (h : Attempt ticket command sent (.ok ())) :
    sent.map Dispatch.command = [.ping, command] := by
  cases h with
  | tried took sends ends => simp [sends]

omit [Seconds τ] in
theorem settled_ok_iff {ofPop ofExpire : Except (Failure τ) Unit} :
    Blocking.settled ofPop ofExpire = .ok () ↔ ofPop = .ok () ∧ ofExpire = .ok () := by
  cases ofPop <;> cases ofExpire <;> simp [Blocking.settled]

theorem inTurn_ok_iff (h : InTurn ticket sent ended) :
    ended = .ok () ↔ ∀ dispatch ∈ sent, dispatch.succeeds = true := by
  cases h with
  | unreached took e => simp [Except.isOk, Except.toBool]
  | @stopped took removal label e removes fails foreign =>
      have hremoval : removal.succeeds ≠ true := by
        rw [Ne, ← Dispatch.ended_eq_ok_iff, fails]
        intro hok
        cases hok
      simp [hremoval]
  | through took removes renews popEnds expireEnds kept =>
      rw [settled_ok_iff, ← popEnds, ← expireEnds, Dispatch.ended_eq_ok_iff,
        Dispatch.ended_eq_ok_iff]
      simp [Except.isOk, Except.toBool]

theorem inTurn_commands (h : InTurn ticket sent (.ok ())) :
    sent.map Dispatch.command =
      [.ping, .lpop ticket.queueKey 1, .expire ticket.queueKey ticket.expiry] := by
  generalize hended : Except.ok () = ended at h
  cases h with
  | unreached took e => cases hended
  | stopped took removes fails foreign => cases hended
  | through took removes renews popEnds expireEnds kept => simp [removes, renews]

/-!
## Nothing is swallowed
-/

/-- What was sent led to the keys of a site.  Where nobody else changes them they are known from the
commands that took effect. -/
structure Leaves (others : Keyspace τ → Keyspace τ → Prop) (ticket : Ticket τ) (keys : Keyspace τ)
    (site : Site τ) : Prop where
  serves : Serves others keys site.sent site.keys
  alone : (∀ keys keys', others keys keys' → keys' = keys) →
    ∃ time, site.keys = swept ticket time (took .expire site.sent) (took .lpop site.sent) keys

variable {keys : Keyspace τ}

theorem Since.of_opening (h : Since others ⟨keys, []⟩ left right site) :
    Merges left right site.sent ∧ Serves others keys site.sent site.keys := by
  rcases h with ⟨sent, hmerges, hsent, hserves⟩
  rw [hsent]
  exact ⟨hmerges, hserves⟩

theorem inTurn_leaves (hsince : Since others ⟨keys, []⟩ [] sent site)
    (hended : InTurn ticket sent ended) : site.sent = sent ∧ Leaves others ticket keys site := by
  rcases hsince.of_opening with ⟨hmerges, hserves⟩
  have hsent := hmerges.eq_of_nil
  refine ⟨hsent, hserves, fun hidle => swept_of_serves hidle hserves ?_ ?_⟩
  · rw [hsent]
    exact inTurn_sweeps hended
  · intro verb hverb
    rw [hsent]
    exact inTurn_once hverb hended

theorem attempts_leave {renewal removal : List (Dispatch τ)}
    {ofExpire ofPop : Except (Failure τ) Unit} (hsince : Since others ⟨keys, []⟩ renewal removal site)
    (hrenews : Attempt ticket (.expire ticket.queueKey ticket.expiry) renewal ofExpire)
    (hremoves : Attempt ticket (.lpop ticket.queueKey 1) removal ofPop) :
    Leaves others ticket keys site := by
  rcases hsince.of_opening with ⟨hmerges, hserves⟩
  refine ⟨hserves, fun hidle => swept_of_serves hidle hserves ?_ ?_⟩
  · intro dispatch hmem
    rcases hmerges.mem_iff.mp hmem with hrenewal | hremoval
    · exact attempt_sweeps (Or.inr (Or.inr rfl)) hrenews dispatch hrenewal
    · exact attempt_sweeps (Or.inr (Or.inl rfl)) hremoves dispatch hremoval
  · intro verb hverb
    have hrenewal := attempt_once hverb hrenews
    have hremoval := attempt_once hverb hremoves
    have hdistinct := lpop_expire_distinct ticket verb
    rw [hmerges.perm.countP_eq, List.countP_append]
    omega

/-- Whatever goes wrong, a clean-up comes to an end, and it returns just when all that it sent has
succeeded, the removal and the renewal included.  Each leg of a cooperative clean-up does what it
does alone, and has done it when the clean-up ends.  The failure of the only leg that failed is
raised, and so is that of the renewal if both have failed. -/
theorem no_failure_is_swallowed (others : Keyspace τ → Keyspace τ → Prop) (keys : Keyspace τ)
    (ticket : Ticket τ) :
    Plan.Concludes (Answers others) False
        (fun site ended =>
          (ended = .ok () ↔ ∀ dispatch ∈ site.sent, dispatch.succeeds = true) ∧
          (ended = .ok () → site.sent.map Dispatch.command =
            [.ping, .lpop ticket.queueKey 1, .expire ticket.queueKey ticket.expiry]) ∧
          Leaves others ticket keys site)
        ⟨keys, []⟩ (onPremises (Blocking.cleanUp ticket)) ∧
      Plan.Concludes (Answers others) False
        (fun site ended => ∃ renewal removal ofExpire ofPop,
          Merges renewal removal site.sent ∧
          Attempt ticket (.expire ticket.queueKey ticket.expiry) renewal ofExpire ∧
          Attempt ticket (.lpop ticket.queueKey 1) removal ofPop ∧
          (ended = .ok () ↔ ∀ dispatch ∈ site.sent, dispatch.succeeds = true) ∧
          (ended = .ok () →
            renewal.map Dispatch.command = [.ping, .expire ticket.queueKey ticket.expiry] ∧
              removal.map Dispatch.command = [.ping, .lpop ticket.queueKey 1]) ∧
          (∀ e, ofExpire = .error e → ended = .error (e.ofLeg "expire")) ∧
          (∀ e, ofExpire = .ok () → ofPop = .error e → ended = .error (e.ofLeg "lpop")) ∧
          Leaves others ticket keys site)
        ⟨keys, []⟩ (onPremises (Cooperative.cleanUp ticket)) := by
  constructor
  · apply (blocking_concludes others False ticket ⟨keys, []⟩).mono
    intro site ended h
    rcases h with ⟨sent, hsince, hended⟩
    rcases inTurn_leaves hsince hended with ⟨rfl, hleaves⟩
    refine ⟨inTurn_ok_iff hended, ?_, hleaves⟩
    rintro rfl
    exact inTurn_commands hended
  · apply (cooperative_concludes others False ticket ⟨keys, []⟩).mono
    intro site ended h
    rcases h with ⟨renewal, removal, ofExpire, ofPop, hsince, hended⟩
    cases hended with
    | parted _ _ interrupted => exact interrupted.elim
    | joined renews removes =>
        have hmerges := hsince.of_opening.1
        refine ⟨renewal, removal, ofExpire, ofPop, hmerges, renews, removes, ?_, ?_, ?_, ?_,
          attempts_leave hsince renews removes⟩
        · rw [Cooperative.joined_ok_iff, attempt_ok_iff renews, attempt_ok_iff removes]
          simp only [hmerges.mem_iff, or_imp, forall_and]
        · intro hok
          rcases Cooperative.joined_ok_iff.mp hok with ⟨rfl, rfl⟩
          exact ⟨attempt_commands renews, attempt_commands removes⟩
        · intro e he
          rw [he, Cooperative.joined_error]
          rfl
        · intro e hok he
          rw [hok, he, Cooperative.joined_error]
          rfl

/-!
## The expiry
-/

/-- A blocking clean-up that reaches its server sends one removal.  It renews the expiry after it,
once, unless the removal ended with something else than an error of the semaphore.  A failure of the
removal is raised in the end, unless the renewal ended in such a way. -/
theorem expiry_withheld_iff (others : Keyspace τ → Keyspace τ → Prop) (keys : Keyspace τ)
    (ticket : Ticket τ) :
    Plan.Concludes (Answers others) False
      (fun site ended =>
        (∃ took e, site.sent = [.ping took (.error e)] ∧
          ended = .error (asStoreFailure ticket.endpoint "PING" ticket.queueKey e)) ∨
        ∃ took label removal renewals, site.sent = .ping took (.ok ()) :: removal :: renewals ∧
          removal.command = .lpop ticket.queueKey 1 ∧
          renewals.map Dispatch.command =
            (if removal.breaks then [] else [.expire ticket.queueKey ticket.expiry]) ∧
          (∀ e, removal.ended label ticket.queueKey = .error e →
            (∀ renewal ∈ renewals, renewal.breaks = false) → ended = .error e) ∧
          ∀ renewal ∈ renewals, renewal.breaks = true →
            ended = renewal.ended label ticket.queueKey)
      ⟨keys, []⟩ (onPremises (Blocking.cleanUp ticket)) := by
  apply (blocking_concludes others False ticket ⟨keys, []⟩).mono
  intro site ended h
  rcases h with ⟨sent, hsince, hended⟩
  rw [(inTurn_leaves hsince hended).1]
  cases hended with
  | unreached took e => exact Or.inl ⟨took, e, rfl, rfl⟩
  | @stopped took removal label e removes fails foreign =>
      refine Or.inr ⟨took, label, removal, [], rfl, removes, ?_, ?_, ?_⟩
      · rw [if_pos ((removal.breaks_iff label ticket.queueKey).mpr ⟨e, fails, foreign⟩)]
        rfl
      · intro e' he' _
        exact fails.symm.trans he'
      · intro renewal hmem
        cases hmem
  | @through took removal renewal label ofPop ofExpire removes renews popEnds expireEnds kept =>
      refine Or.inr ⟨took, label, removal, [renewal], rfl, removes, ?_, ?_, ?_⟩
      · rw [if_neg]
        · rw [List.map_singleton, renews]
        · intro hbreaks
          rcases (removal.breaks_iff label ticket.queueKey).mp hbreaks with ⟨e, he, hforeign⟩
          rw [kept e (popEnds.symm.trans he)] at hforeign
          cases hforeign
      · intro e he hrenewal
        rw [← popEnds, he]
        apply Blocking.settled_of_kept
        intro e' he'
        exact Dispatch.kept_of_not_breaks (hrenewal renewal List.mem_cons_self)
          (expireEnds.trans he')
      · intro renewal' hmem hbreaks
        rw [List.mem_singleton.mp hmem] at hbreaks ⊢
        rcases (renewal.breaks_iff label ticket.queueKey).mp hbreaks with ⟨e, he, hforeign⟩
        rw [← expireEnds, he]
        exact Blocking.settled_of_foreign hforeign

/-- The expiry is withheld after the removal of a head that is no text. -/
example : (Dispatch.mk (.lpop "queue" 1) true (.ok (some [.bytes ⟨#[255]⟩])) :
    Dispatch Float).breaks = true := by
  decide +kernel

end Site
end Turnstile
