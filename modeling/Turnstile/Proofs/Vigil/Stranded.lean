import Turnstile.Proofs.Rounds
import Turnstile.Proofs.Vigil.Position

/-!
# Waiters that are no longer in the queue

A waiter that does not find its entry is taken to stand at position one.  Where there is only one
slot it is not admitted there, and it is not rejected there either, since nobody is rejected at the
first position that has to wait, whatever the largest tolerated one is.  So it goes on looking for
an entry that nobody will make again.

`Plight` says whether a waiter has found its entry when it last looked.  Up to the look at which it
does not, anything may happen to the queue.  From then on nobody enters it under the identity of the
waiter, and anything else may happen to it.

## Main definitions

* `Vigil.Moves` - the wait goes on, or others change the keys as they may.
* `Vigil.Misses` - the waiter looks, and does not find its entry.
* `Vigil.Idles` and `Vigil.Breaks` - what a stranded waiter asks for, and what ends its wait.

## Main statements

* `Vigil.stranded_for_ever` - a stranded waiter goes on until something fails.
-/

namespace Turnstile

open Redis

variable {τ : Type}

theorem Ticket.verdict_absent [Seconds τ] {ticket : Ticket τ} (h : ticket.capacity = 1) :
    ticket.verdict absentPosition = .waiting := by
  unfold TicketForm.verdict absentPosition
  rw [h, if_neg (by decide), if_neg (by omega)]

/-- Whether a waiter has lost its entry, by all that it was told. -/
inductive Plight (τ : Type) where
  /-- It has found its entry when it last looked, or it has not looked yet. -/
  | present
  /-- It has not found its entry.  It was told an estimate since then, or has none to sleep by. -/
  | gone (estimated : Option τ)
  /-- It has not found its entry, and something has failed since then. -/
  | failed (e : Failure τ)

variable [Seconds τ]

namespace Plight

def allows (ticket : Ticket τ) : Plight τ → (Premises τ).Request → Prop
  | .present, _ => True
  | .gone estimated, .inl (.call _ (.lpos key id)) =>
      key = ticket.queueKey ∧ id = ticket.id ∧ estimated = none
  | .gone _, .inl _ => False
  | .gone estimated, .inr r =>
      match r with
      | .estimate position capacity base =>
          position = absentPosition ∧ capacity = 1 ∧ base = ticket.baseSleep ∧ estimated = none
      | .sleep duration => estimated = some duration
      | .record .. => True
      | _ => False
  | .failed _, .inl (.hangUp _) => True
  | .failed _, .inr (.record ..) => True
  | .failed _, _ => False

def fail (e : Failure τ) : Plight τ → Plight τ
  | .gone _ => .failed e
  | φ => φ

def after (φ : Plight τ) : (r : (Premises τ).Request) → (Premises τ).Answer r → Plight τ
  | .inl (.call client command), reply =>
      match command, reply with
      | .lpos _ _, .ok (none : Option Nat) => .gone none
      | .lpos _ _, .ok (some _ : Option Nat) => .present
      | .lpos key _, .error e => φ.fail (asStoreFailure client.arguments.label "LPOS" key e)
      | _, _ => φ
  | .inl _, _ => φ
  | .inr r, answer =>
      match φ, r, answer with
      | .gone _, .estimate .., .ok (duration : τ) => .gone (some duration)
      | φ, .estimate .., .error e => φ.fail e
      | .gone _, .sleep _, .ok _ => .gone none
      | φ, .sleep _, .error e => φ.fail e
      | φ, _, _ => φ

def terms (ticket : Ticket τ) : Plan.Terms (Premises τ) (Plight τ) where
  ask φ r post := φ.allows ticket r ∧ ∀ answer, post (φ.after r answer) answer
  ask_mono hpost h := ⟨h.1, fun answer => hpost _ answer (h.2 answer)⟩
  interruptible := True

/-- The loop goes on at position one if the entry is gone. -/
def Stands (φ : Plight τ) (position : Int) : Prop :=
  φ = .present ∨ φ = .gone none ∧ position = absentPosition

def Sleeps (φ : Plight τ) (duration : τ) : Prop :=
  φ = .present ∨ φ = .gone (some duration)

def Looks (φ : Plight τ) : Prop :=
  φ = .present ∨ φ = .gone none

def Fails (φ : Plight τ) (e : Failure τ) : Prop :=
  φ = .present ∨ φ = .failed e

/-!
## Requests
-/

section Requests

variable {ticket : Ticket τ} {failed : Plight τ → Failure τ → Prop}

theorem keeps_connect {endpoint key : String} {done : Plight τ → Queue → Prop}
    (hdone : ∀ queue : Queue, queue.key = key → done .present queue)
    (hfailed : ∀ e, failed .present e) :
    Action.Keeps serveOnPremises (Service.connect endpoint key) (terms ticket) .present done
      failed := by
  apply Turnstile.keeps_connect
  constructor
  · trivial
  · intro client
    constructor
    · trivial
    · intro (reply : Except (Failure τ) Unit)
      cases reply with
      | ok _ => exact hdone _ rfl
      | error e => exact ⟨⟨trivial, fun _ => hfailed _⟩, hfailed _⟩

theorem keeps_push {queue : Queue} {id : String} {done : Plight τ → Nat → Prop}
    (hdone : ∀ length, done .present length) (hfailed : ∀ e, failed .present e) :
    Action.Keeps serveOnPremises (Service.push queue id) (terms ticket) .present done failed := by
  apply Turnstile.keeps_push
  constructor
  · trivial
  · intro (reply : Except (Failure τ) Nat)
    cases reply with
    | ok length => exact hdone length
    | error e => exact hfailed _

theorem keeps_position {queue : Queue} {φ : Plight τ} {done : Plight τ → Option Nat → Prop}
    (hqueue : queue.key = ticket.queueKey) (hlooks : φ.Looks)
    (hdone : ∀ φ' rank, φ'.Stands (positionOfRank rank) → done φ' rank)
    (hfailed : ∀ φ' e, φ'.Fails e → failed φ' e) :
    Action.Keeps serveOnPremises (Service.position queue ticket.id) (terms ticket) φ done
      failed := by
  apply Turnstile.keeps_position
  constructor
  · rcases hlooks with rfl | rfl
    · trivial
    · exact ⟨hqueue, rfl, rfl⟩
  · intro (reply : Except (Failure τ) (Option Nat))
    cases reply with
    | ok rank =>
        cases rank with
        | none => exact hdone _ _ (Or.inr ⟨rfl, rfl⟩)
        | some rank => exact hdone _ _ (Or.inl rfl)
    | error e =>
        apply hfailed
        rcases hlooks with rfl | rfl
        · exact Or.inl rfl
        · exact Or.inr rfl

theorem keeps_estimate {φ : Plight τ} {position : Int} {done : Plight τ → τ → Prop}
    (hcapacity : ticket.capacity = 1) (hstands : φ.Stands position)
    (hdone : ∀ φ' duration, φ'.Sleeps duration → done φ' duration)
    (hfailed : ∀ φ' e, φ'.Fails e → failed φ' e) :
    Action.Keeps serveOnPremises (Service.estimate position ticket.capacity ticket.baseSleep)
      (terms ticket) φ done failed := by
  constructor
  · rcases hstands with rfl | ⟨rfl, rfl⟩
    · trivial
    · exact ⟨rfl, hcapacity, rfl, rfl⟩
  · intro (reply : Except (Failure τ) τ)
    cases reply with
    | ok duration =>
        apply hdone
        rcases hstands with rfl | ⟨rfl, rfl⟩
        · exact Or.inl rfl
        · exact Or.inr rfl
    | error e =>
        apply hfailed
        rcases hstands with rfl | ⟨rfl, rfl⟩
        · exact Or.inl rfl
        · exact Or.inr rfl

theorem keeps_sleep {φ : Plight τ} {duration : τ} {done : Plight τ → Unit → Prop}
    (hsleeps : φ.Sleeps duration) (hdone : ∀ φ', φ'.Looks → done φ' ())
    (hfailed : ∀ φ' e, φ'.Fails e → failed φ' e) :
    Action.Keeps serveOnPremises (Service.sleep duration) (terms ticket) φ done failed := by
  constructor
  · rcases hsleeps with rfl | rfl
    · trivial
    · rfl
  · intro (reply : Except (Failure τ) Unit)
    cases reply with
    | ok _ =>
        apply hdone
        rcases hsleeps with rfl | rfl
        · exact Or.inl rfl
        · exact Or.inr rfl
    | error e =>
        apply hfailed
        rcases hsleeps with rfl | rfl
        · exact Or.inl rfl
        · exact Or.inr rfl

theorem keeps_record {φ : Plight τ} {mode : Mode} {entry : Entry τ} {done : Plight τ → Unit → Prop}
    (hdone : done φ ()) :
    Action.Keeps serveOnPremises (Service.record mode entry) (terms ticket) φ done failed := by
  apply Action.keeps_lift
  apply meets_ambient
  cases φ with
  | _ => exact ⟨trivial, fun _ => hdone⟩

theorem keeps_now {done : Plight τ → τ → Prop} (hdone : ∀ time, done .present time) :
    Action.Keeps serveOnPremises Service.now (terms ticket) .present done failed :=
  Action.keeps_lift (meets_ambient ⟨trivial, hdone⟩)

theorem keeps_announce {position : Int} {done : Plight τ → Unit → Prop} (hdone : done .present ())
    (hfailed : ∀ e, failed .present e) :
    Action.Keeps serveOnPremises (Service.announce position) (terms ticket) .present done
      failed := by
  constructor
  · trivial
  · intro (reply : Except (Failure τ) Unit)
    cases reply with
    | ok _ => exact hdone
    | error e => exact hfailed _

theorem meets_close {queue : Queue} {φ : Plight τ} {post : Plight τ → Unit → Prop}
    (hends : φ = .present ∨ ∃ e, φ = .failed e) (hpost : post φ ()) :
    ((Service.close queue).serve serveOnPremises).Meets (terms ticket) φ post := by
  apply Turnstile.meets_close
  · rcases hends with rfl | ⟨e, rfl⟩
    · exact ⟨trivial, fun _ => hpost⟩
    · exact ⟨trivial, fun _ => hpost⟩
  · exact hpost

theorem keeps_admission {started : τ} {mode : Mode} {entry : Int → Entry τ}
    {done : Plight τ → Int ⊕ Unit → Prop} (hdone : done .present (.inr ()))
    (hfailed : ∀ e, failed .present e) :
    Action.Keeps serveOnPremises
      (do
        let elapsed ← Service.elapsedSince started
        Service.record mode (entry elapsed)
        pure (.inr ()) : Operation Queue τ (Int ⊕ Unit))
      (terms ticket) .present done failed := by
  apply Action.keeps_bind
  apply Action.keeps_bind
  apply keeps_now
  intro time
  cases Seconds.toMillis (time - started) with
  | ok ms =>
      apply Action.keeps_pure
      apply Action.keeps_bind
      apply keeps_record
      exact Action.keeps_pure hdone
  | error e => exact Action.keeps_throw (hfailed _)

end Requests
end Plight

/-!
## Waits
-/

section Waits

variable {ticket : Ticket τ} {queue : Queue} {started : τ} {position : Int} {φ : Plight τ}
  {done : Plight τ → Int ⊕ Unit → Prop} {failed : Plight τ → Failure τ → Prop}

theorem Plight.Stands.present (h : φ.Stands position) (hcapacity : ticket.capacity = 1)
    (hverdict : ticket.verdict position ≠ .waiting) : φ = .present := by
  rcases h with hpresent | ⟨_, rfl⟩
  · exact hpresent
  · exact absurd (Ticket.verdict_absent hcapacity) hverdict

theorem Blocking.look_strands (hqueue : queue.key = ticket.queueKey)
    (hcapacity : ticket.capacity = 1) (hstands : φ.Stands position)
    (hadmitted : done .present (.inr ()))
    (hmoved : ∀ φ' position', φ'.Stands position' → done φ' (.inl position'))
    (hfailed : ∀ φ' e, φ'.Fails e → failed φ' e) :
    Action.Keeps serveOnPremises (look queue ticket none started position) (Plight.terms ticket) φ
      done failed := by
  have hpresent : ∀ e, failed .present e := fun e => hfailed _ e (Or.inl rfl)
  unfold look
  cases hverdict : ticket.verdict position with
  | admitted =>
      rw [hstands.present hcapacity (by rw [hverdict]; nofun)]
      exact Plight.keeps_admission hadmitted hpresent
  | rejected =>
      rw [hstands.present hcapacity (by rw [hverdict]; nofun)]
      exact Action.keeps_throw (hpresent _)
  | waiting =>
      apply Action.keeps_bind
      apply Plight.keeps_estimate hcapacity hstands _ hfailed
      intro φ₁ duration hsleeps
      apply Action.keeps_bind
      apply Action.keeps_pure
      apply Action.keeps_bind
      apply Plight.keeps_sleep hsleeps _ hfailed
      intro φ₂ hlooks
      apply Action.keeps_bind
      apply Plight.keeps_position hqueue hlooks _ hfailed
      intro φ₃ rank hstands'
      apply Action.keeps_bind
      apply Plight.keeps_record
      exact Action.keeps_pure (hmoved _ _ hstands')

theorem Cooperative.look_strands (hqueue : queue.key = ticket.queueKey)
    (hcapacity : ticket.capacity = 1) (hstands : φ.Stands position)
    (hadmitted : done .present (.inr ()))
    (hmoved : ∀ φ' position', φ'.Stands position' → done φ' (.inl position'))
    (hfailed : ∀ φ' e, φ'.Fails e → failed φ' e) :
    Action.Keeps serveOnPremises (look queue ticket started position) (Plight.terms ticket) φ
      done failed := by
  have hpresent : ∀ e, failed .present e := fun e => hfailed _ e (Or.inl rfl)
  unfold look
  cases hverdict : ticket.verdict position with
  | admitted =>
      rw [hstands.present hcapacity (by rw [hverdict]; nofun)]
      exact Plight.keeps_admission hadmitted hpresent
  | rejected =>
      rw [hstands.present hcapacity (by rw [hverdict]; nofun)]
      apply Action.keeps_bind
      apply Plight.keeps_record
      exact Action.keeps_throw (hpresent _)
  | waiting =>
      apply Action.keeps_bind
      apply Plight.keeps_estimate hcapacity hstands _ hfailed
      intro φ₁ duration hsleeps
      apply Action.keeps_bind
      apply Plight.keeps_record
      apply Action.keeps_bind
      apply Plight.keeps_sleep hsleeps _ hfailed
      intro φ₂ hlooks
      apply Action.keeps_bind
      apply Plight.keeps_position hqueue hlooks _ hfailed
      intro φ₃ rank hstands'
      have hnext : Action.Keeps serveOnPremises
          (do
            Service.record .cooperative (.moved (positionOfRank rank))
            pure (.inl (positionOfRank rank)) : Operation Queue τ (Int ⊕ Unit))
          (Plight.terms ticket) φ₃ done failed := by
        apply Action.keeps_bind
        apply Plight.keeps_record
        exact Action.keeps_pure (hmoved _ _ hstands')
      split
      · apply Action.keeps_bind
        apply Plight.keeps_record
        exact hnext
      · exact hnext

/-- A wait returns only if it has found its entry when it last looked. -/
theorem Blocking.wait_strands (hcapacity : ticket.capacity = 1) :
    Action.Keeps serveOnPremises (wait ticket none) (Plight.terms ticket) .present
      (fun φ _ => φ = .present) Plight.Fails := by
  apply Action.keeps_bind
  apply Plight.keeps_connect
  · intro queue hqueue
    apply Action.keeps_ensuring
    apply Action.keeps_bind
    apply Plight.keeps_now
    intro started
    apply Action.keeps_bind
    apply Plight.keeps_push
    · intro length
      apply Action.keeps_bind
      apply Plight.keeps_record
      apply Action.keeps_repeatFrom Plight.Stands
      · exact Or.inl rfl
      · intro φ position hstands
        apply look_strands hqueue hcapacity hstands
        · exact Plight.meets_close (Or.inl rfl) rfl
        · intro φ' position' hstands'
          exact hstands'
        · intro φ' e he
          exact Plight.meets_close (he.imp_right fun h => ⟨e, h⟩) he
    · intro e
      exact Plight.meets_close (Or.inl rfl) (Or.inl rfl)
  · intro e
    exact Or.inl rfl

theorem Cooperative.entered_strands {watched : Bool} (hqueue : queue.key = ticket.queueKey)
    (hcapacity : ticket.capacity = 1) :
    Action.Keeps serveOnPremises
      (do
        if watched then
          Service.announce position
        Service.record .cooperative (.entered ticket.queueKey position)
        Action.repeatFrom position (look queue ticket started) : Operation Queue τ Unit)
      (Plight.terms ticket) .present (fun φ _ => φ = .present) Plight.Fails := by
  have hloop : Action.Keeps serveOnPremises
      (do
        Service.record .cooperative (.entered ticket.queueKey position)
        Action.repeatFrom position (look queue ticket started) : Operation Queue τ Unit)
      (Plight.terms ticket) .present (fun φ _ => φ = .present) Plight.Fails := by
    apply Action.keeps_bind
    apply Plight.keeps_record
    apply Action.keeps_repeatFrom Plight.Stands
    · exact Or.inl rfl
    · intro φ position' hstands
      apply look_strands hqueue hcapacity hstands
      · rfl
      · intro φ' position'' hstands'
        exact hstands'
      · intro φ' e he
        exact he
  cases watched with
  | false => exact hloop
  | true =>
      apply Action.keeps_bind
      apply Plight.keeps_announce hloop
      intro e
      exact Or.inl rfl

theorem Cooperative.wait_strands {watched : Bool} (hcapacity : ticket.capacity = 1) :
    Action.Keeps serveOnPremises (wait ticket watched) (Plight.terms ticket) .present
      (fun φ _ => φ = .present) Plight.Fails := by
  apply Action.meets_serve_bind
  apply Action.meets_run
  apply Plight.keeps_connect
  · intro queue hqueue
    apply Action.meets_serve_bind
    apply meets_ambient
    constructor
    · trivial
    · intro (started : τ)
      apply Action.meets_run
      apply Plight.keeps_push
      · intro length
        apply Action.meets_run
        refine (entered_strands hqueue hcapacity).mono ?_ ?_
        · intro φ _ hφ
          apply Action.meets_serve_bind
          exact Plight.meets_close (Or.inl hφ) hφ
        · intro φ e he
          apply Action.meets_serve_bind
          exact Plight.meets_close (he.imp_right fun h => ⟨e, h⟩) he
      · intro e
        apply Action.meets_serve_bind
        exact Plight.meets_close (Or.inl rfl) (Or.inl rfl)
  · intro e
    exact Or.inl rfl

end Waits

/-!
## Runs
-/

namespace Vigil

/-- The wait goes on, or others change the keys as they may. -/
inductive Moves (faults : Failure τ → Prop) (may : Keyspace τ → Keyspace τ → Prop)
    (vigil : Vigil τ) : Vigil τ → Prop where
  | turn {plan : Plan (Premises τ) τ (Except (Failure τ) Unit)}
      (turns : Plan.Turns True vigil.plan plan) :
      Moves faults may vigil { vigil with plan := plan }
  | hears {r : (Premises τ).Request} {answer : (Premises τ).Answer r} {keys : Keyspace τ}
      {plan : Plan (Premises τ) τ (Except (Failure τ) Unit)}
      (asks : vigil.plan.Asks r answer plan) (answers : Answers faults vigil.keys r answer keys) :
      Moves faults may vigil ⟨keys, vigil.heard ++ [⟨r, answer⟩], plan⟩
  | others {keys : Keyspace τ} (changed : may vigil.keys keys) :
      Moves faults may vigil { vigil with keys := keys }

/-- Nobody enters the queue of a ticket under its identity. -/
def Unentered (ticket : Ticket τ) (keys keys' : Keyspace τ) : Prop :=
  ticket.id.toUTF8 ∈ keys'.items ticket.queueKey → ticket.id.toUTF8 ∈ keys.items ticket.queueKey

/-- The waiter looks, and does not find its entry. -/
inductive Misses (faults : Failure τ → Prop) (ticket : Ticket τ) (vigil : Vigil τ) :
    Vigil τ → Prop where
  | looks (client : Client) {keys : Keyspace τ}
      {plan : Plan (Premises τ) τ (Except (Failure τ) Unit)}
      (asks : vigil.plan.Asks (.inl (.call client (.lpos ticket.queueKey ticket.id)))
        (.ok (none : Option Nat)) plan)
      (answers : Answers faults vigil.keys
        (.inl (.call client (.lpos ticket.queueKey ticket.id))) (.ok (none : Option Nat)) keys) :
      Misses faults ticket vigil ⟨keys, vigil.heard ++
        [⟨.inl (.call client (.lpos ticket.queueKey ticket.id)), .ok (none : Option Nat)⟩], plan⟩

/-- What a stranded waiter asks for and hears.  It is told an estimate for position one, sleeps for
that long, and looks in vain.  What it was told and has not slept yet is told as well. -/
inductive Idles (ticket : Ticket τ) : List (Plan.Exchange (Premises τ)) → Option τ → Prop where
  | start : Idles ticket [] none
  | estimates {heard : List (Plan.Exchange (Premises τ))} (duration : τ)
      (idle : Idles ticket heard none) :
      Idles ticket (heard ++ [⟨.inr (.estimate absentPosition 1 ticket.baseSleep),
        Except.ok (ε := Failure τ) duration⟩]) (some duration)
  | sleeps {heard : List (Plan.Exchange (Premises τ))} {duration : τ}
      (idle : Idles ticket heard (some duration)) :
      Idles ticket (heard ++ [⟨.inr (.sleep duration), Except.ok (ε := Failure τ) ()⟩]) none
  | looks {heard : List (Plan.Exchange (Premises τ))} (client : Client)
      (idle : Idles ticket heard none) :
      Idles ticket (heard ++ [⟨.inl (.call client (.lpos ticket.queueKey ticket.id)),
        Except.ok (ε := Failure τ) (none : Option Nat)⟩]) none
  | records {heard : List (Plan.Exchange (Premises τ))} {estimated : Option τ} (mode : Mode)
      (entry : Entry τ) (idle : Idles ticket heard estimated) :
      Idles ticket (heard ++ [⟨.inr (.record mode entry), ()⟩]) estimated

/-- What ends the wait of a stranded waiter: its estimate, its sleep or its look fails. -/
inductive Breaks (ticket : Ticket τ) :
    Option τ → Plan.Exchange (Premises τ) → Failure τ → Prop where
  | estimate (e : Failure τ) : Breaks ticket none
      ⟨.inr (.estimate absentPosition 1 ticket.baseSleep), Except.error (α := τ) e⟩ e
  | sleep (duration : τ) (e : Failure τ) : Breaks ticket (some duration)
      ⟨.inr (.sleep duration), Except.error (α := Unit) e⟩ e
  | look (client : Client) (e : Failure τ) : Breaks ticket none
      ⟨.inl (.call client (.lpos ticket.queueKey ticket.id)), Except.error (α := Option Nat) e⟩
      (asStoreFailure client.arguments.label "LPOS" ticket.queueKey e)

def Closing : (Premises τ).Request → Prop
  | .inl (.hangUp _) => True
  | .inr (.record ..) => True
  | _ => False

/-- What a waiter has heard since it has lost its entry. -/
inductive Since (faults : Failure τ → Prop) (ticket : Ticket τ) :
    Plight τ → List (Plan.Exchange (Premises τ)) → Prop where
  | gone {heard : List (Plan.Exchange (Premises τ))} {estimated : Option τ}
      (idle : Idles ticket heard estimated) : Since faults ticket (.gone estimated) heard
  | failed {heard closing : List (Plan.Exchange (Premises τ))} {estimated : Option τ}
      {exchange : Plan.Exchange (Premises τ)} {e : Failure τ}
      (idle : Idles ticket heard estimated) (breaks : Breaks ticket estimated exchange e)
      (quiet : e.exceeds = true → Noise faults)
      (closes : ∀ later ∈ closing, Closing later.1) :
      Since faults ticket (.failed e) (heard ++ exchange :: closing)

variable {faults : Failure τ → Prop} {may : Keyspace τ → Keyspace τ → Prop} {ticket : Ticket τ}
  {keys keys' : Keyspace τ} {φ : Plight τ} {r : (Premises τ).Request}
  {answer : (Premises τ).Answer r} {past heard : List (Plan.Exchange (Premises τ))}
  {vigil vigil' : Vigil τ}

theorem Since.breaks {estimated : Option τ} {e : Failure τ} {exchange : Plan.Exchange (Premises τ)}
    (idle : Idles ticket heard estimated) (breaks : Breaks ticket estimated exchange e)
    (quiet : e.exceeds = true → Noise faults) :
    Since faults ticket (.failed e) (heard ++ [exchange]) :=
  .failed idle breaks quiet fun _ hmem => absurd hmem List.not_mem_nil

theorem Since.closes {e : Failure τ} {exchange : Plan.Exchange (Premises τ)}
    (h : Since faults ticket (.failed e) heard) (hcloses : Closing exchange.1) :
    Since faults ticket (.failed e) (heard ++ [exchange]) := by
  cases h with
  | failed idle breaks quiet closes =>
      rw [List.append_assoc]
      apply Since.failed idle breaks quiet
      intro later hmem
      rcases List.mem_append.mp hmem with hmem | hmem
      · exact closes later hmem
      · cases List.mem_singleton.mp hmem
        exact hcloses

/-- A waiter whose entry is not in the queue does not find it again. -/
theorem Since.hears (h : Since faults ticket φ heard) (hallows : φ.allows ticket r)
    (habsent : ticket.id.toUTF8 ∉ keys.items ticket.queueKey)
    (hanswers : Answers faults keys r answer keys') :
    keys' = keys ∧ Since faults ticket (φ.after r answer) (heard ++ [⟨r, answer⟩]) := by
  cases φ with
  | present => cases h
  | failed e =>
      cases hanswers with
      | hangUp client => exact ⟨rfl, h.closes trivial⟩
      | record mode entry => exact ⟨rfl, h.closes trivial⟩
      | _ => exact hallows.elim
  | gone estimated =>
      rcases h with ⟨idle⟩
      cases hanswers with
      | @call client command took reply keys' executed =>
          cases command with
          | lpos key id =>
              rcases hallows with ⟨rfl, rfl, rfl⟩
              refine ⟨executed.lpos_keys, ?_⟩
              cases reply with
              | ok rank =>
                  -- A look is answered by what the queue holds, and the entry is not there.
                  have hrank : rank = none := by
                    rw [executed.lpos_ok rfl]
                    exact List.idxOf?_eq_none_iff.mpr habsent
                  cases hrank
                  exact .gone (.looks client idle)
              | error e =>
                  apply Since.breaks idle (.look client e)
                  rw [Failure.exceeds_asStoreFailure]
                  exact executed.exceeds rfl
          | _ => exact hallows.elim
      | @estimate position capacity base reply allowed =>
          rcases hallows with ⟨rfl, rfl, rfl, rfl⟩
          cases reply with
          | ok duration => exact ⟨rfl, .gone (.estimates duration idle)⟩
          | error e =>
              exact ⟨rfl, .breaks idle (.estimate e) fun hexceeds => ⟨e, allowed e rfl, hexceeds⟩⟩
      | @sleep duration reply allowed =>
          cases hallows
          cases reply with
          | ok _ => exact ⟨rfl, .gone (.sleeps idle)⟩
          | error e =>
              exact ⟨rfl, .breaks idle (.sleep duration e) fun hexceeds =>
                ⟨e, allowed e rfl, hexceeds⟩⟩
      | record mode entry => exact ⟨rfl, .gone (.records mode entry idle)⟩
      | _ => exact hallows.elim

def Judged (ticket : Ticket τ) (φ : Plight τ) (vigil : Vigil τ) : Prop :=
  vigil.plan.Meets (Plight.terms ticket) φ
    (Action.Ends (fun φ' _ => φ' = .present) Plight.Fails)

theorem judged_opening {wait : Wait τ} (hcapacity : ticket.capacity = 1)
    (hunlimited : ∀ limit, wait ≠ .blocking (some limit)) :
    (opening ticket wait keys).Judged ticket .present := by
  cases wait with
  | blocking limit? =>
      cases limit? with
      | none => exact Blocking.wait_strands hcapacity
      | some limit => exact absurd rfl (hunlimited limit)
  | cooperative watched => exact Cooperative.wait_strands hcapacity

theorem Judged.moves (h : vigil.Judged ticket φ) (hmoves : Moves faults may vigil vigil') :
    ∃ φ', vigil'.Judged ticket φ' := by
  cases hmoves with
  | turn turns => exact ⟨φ, h.turns turns⟩
  | hears asks answers => exact ⟨_, (h.asks asks).2 _ rfl⟩
  | others changed => exact ⟨φ, h⟩

theorem Judged.leads (h : vigil.Judged ticket φ)
    (hleads : Relation.ReflTransGen (Moves faults may) vigil vigil') :
    ∃ φ', vigil'.Judged ticket φ' := by
  induction hleads with
  | refl => exact ⟨φ, h⟩
  | tail _ hmoves ih =>
      rcases ih with ⟨φ₁, hjudged⟩
      exact hjudged.moves hmoves

/-- A waiter that has lost its entry, whatever it was answered since and whatever others did. -/
structure Lost (faults : Failure τ → Prop) (ticket : Ticket τ)
    (past : List (Plan.Exchange (Premises τ))) (φ : Plight τ)
    (heard : List (Plan.Exchange (Premises τ))) (vigil : Vigil τ) : Prop where
  judged : vigil.Judged ticket φ
  recalls : vigil.heard = past ++ heard
  since : Since faults ticket φ heard
  absent : ticket.id.toUTF8 ∉ vigil.keys.items ticket.queueKey

theorem Misses.lost (h : Misses faults ticket vigil vigil') (hjudged : vigil.Judged ticket φ) :
    vigil'.Lost faults ticket vigil'.heard (.gone none) [] := by
  cases h with
  | looks client asks answers =>
      constructor
      · exact (hjudged.asks asks).2 _ rfl
      · exact (List.append_nil _).symm
      · exact .gone .start
      · cases answers with
        | call client executed =>
            have hrank := executed.lpos_ok rfl
            rw [executed.lpos_keys]
            exact List.idxOf?_eq_none_iff.mp hrank.symm

theorem Lost.moves (h : vigil.Lost faults ticket past φ heard)
    (hmoves : Moves faults (Unentered ticket) vigil vigil') :
    ∃ φ' heard', vigil'.Lost faults ticket past φ' heard' := by
  cases hmoves with
  | turn turns => exact ⟨φ, heard, h.judged.turns turns, h.recalls, h.since, h.absent⟩
  | others changed =>
      have habsent : ticket.id.toUTF8 ∉ _ := fun hmem => h.absent (changed hmem)
      exact ⟨φ, heard, h.judged, h.recalls, h.since, habsent⟩
  | @hears r answer keys plan asks answers =>
      rcases h.judged.asks asks with ⟨hallows, hnext⟩
      rcases h.since.hears hallows h.absent answers with ⟨hkeys, hsince⟩
      refine ⟨_, _, hnext answer rfl, ?_, hsince, ?_⟩
      · rw [h.recalls, List.append_assoc]
      · rw [hkeys]
        exact h.absent

theorem Lost.leads (h : vigil.Lost faults ticket past φ heard)
    (hleads : Relation.ReflTransGen (Moves faults (Unentered ticket)) vigil vigil') :
    ∃ φ' heard', vigil'.Lost faults ticket past φ' heard' := by
  induction hleads with
  | refl => exact ⟨φ, heard, h⟩
  | tail _ hmoves ih =>
      rcases ih with ⟨φ₁, heard₁, hlost⟩
      exact hlost.moves hmoves

theorem Lost.ends {ended : Except (Failure τ) Unit} (h : vigil.Lost faults ticket past φ heard)
    (hended : vigil.plan = .pure ended) : ∃ e, ended = .error e ∧ φ = .failed e := by
  have hends := h.judged
  unfold Judged at hends
  rw [hended] at hends
  have hpresent : φ ≠ .present := by
    rintro rfl
    cases h.since
  cases ended with
  | ok _ => exact absurd hends hpresent
  | error e => exact ⟨e, rfl, hends.resolve_left hpresent⟩

/-- A waiter for the only slot of a queue looks, and does not find its entry, whatever has happened
to the queue before.  Nobody enters the queue under its identity again, but anything else may happen
to it.

From then on the waiter looks at position one only, and each of its sleeps is as long as is
estimated for that position.  It never returns.  If it ends at all it does so because its estimate,
its sleep or its look fails.  It is not rejected, unless that failure is a rejection that others
have made up. -/
theorem stranded_for_ever {wait : Wait τ} {missed later : Vigil τ}
    (hcapacity : ticket.capacity = 1) (hunlimited : ∀ limit, wait ≠ .blocking (some limit))
    (hbefore : Relation.ReflTransGen (Moves faults fun _ _ => True) (opening ticket wait keys)
      vigil)
    (hmisses : Misses faults ticket vigil missed)
    (hafter : Relation.ReflTransGen (Moves faults (Unentered ticket)) missed later) :
    ∃ φ heard, later.heard = missed.heard ++ heard ∧ Since faults ticket φ heard ∧
      ∀ ended, later.plan = .pure ended → ∃ e, ended = .error e ∧ φ = .failed e := by
  rcases (judged_opening hcapacity hunlimited).leads hbefore with ⟨φ, hjudged⟩
  rcases (hmisses.lost hjudged).leads hafter with ⟨φ', heard, hlost⟩
  exact ⟨φ', heard, hlost.recalls, hlost.since, fun ended hended => hlost.ends hended⟩

/-!
## A queue that is emptied
-/

theorem Step.moves (h : Step faults ticket vigil vigil')
    (hmay : ∀ keys keys' : Keyspace τ,
      keys.Disturbed ticket.queueKey ticket.id keys' → may keys keys') :
    Moves faults may vigil vigil' := by
  cases h with
  | turn turns => exact .turn turns
  | hears asks answers => exact .hears asks answers
  | others disturbed => exact .others (hmay _ _ disturbed)

theorem drive_moves {schedule : List (Turn τ)} (h : drive ticket vigil schedule = some vigil')
    (hmay : ∀ keys keys' : Keyspace τ,
      keys.Disturbed ticket.queueKey ticket.id keys' → may keys keys') :
    Relation.ReflTransGen (Moves faults may) vigil vigil' :=
  Relation.ReflTransGen.mono (fun _ _ hstep => Step.moves hstep hmay) _ _ (drive_leads h)

theorem unentered_of_disturbed (h : keys.Disturbed ticket.queueKey ticket.id keys') :
    Unentered ticket keys keys' := by
  have hitems := h.items
  unfold Unentered
  generalize keys'.items ticket.queueKey = line' at hitems ⊢
  intro hmem
  cases hitems with
  | appended other apart =>
      rcases List.mem_append.mp hmem with hmem | hmem
      · exact hmem
      · exact absurd (List.mem_singleton.mp hmem).symm apart
  | removed count => exact List.mem_of_mem_drop hmem

def command? (vigil : Vigil τ) : Option Command :=
  match vigil.plan with
  | .ask (.inl (.call _ command)) _ => some command
  | _ => none

theorem misses_of_next? (hcommand : vigil.command? = some (.lpos ticket.queueKey ticket.id))
    (hlists : vigil.keys.Lists ticket.queueKey []) (hnext : next? ticket vigil .go = some vigil') :
    Misses faults ticket vigil vigil' := by
  unfold command? at hcommand
  split at hcommand
  · rename_i client command next hplan
    cases hcommand
    have hreply : (vigil.keys.run false (0 : τ) (.lpos ticket.queueKey ticket.id)).1.reply =
        .ok none := hlists.lpos_reply ticket.id
    have hasks : vigil.plan.Asks (.inl (.call client (.lpos ticket.queueKey ticket.id)))
        (.ok (none : Option Nat)) (next (.ok none)) := by
      rw [hplan]
      exact .ask _ _ _
    have hexecuted : vigil.keys.Executed faults (.lpos ticket.queueKey ticket.id) true
        (.ok (none : Option Nat)) (vigil.keys.run false 0 (.lpos ticket.queueKey ticket.id)).2 := by
      rw [← hreply]
      exact .answered false 0
    unfold next? at hnext
    rw [hplan] at hnext
    dsimp only [answer?] at hnext
    rw [hreply] at hnext
    cases hnext
    exact .looks client hasks (.call client hexecuted)
  · cases hcommand

/-- Others remove all entries between two looks of a waiter, and somebody enters later.  The waiter
does not find its entry, and goes on. -/
theorem stranded_for_ever_at_busyGate : ∃ vigil missed later,
    Relation.ReflTransGen (Moves (fun _ => False) fun _ _ => True)
      (opening lateTicket (.blocking none) busyGate) vigil ∧
    Misses (fun _ => False) lateTicket vigil missed ∧
    Relation.ReflTransGen (Moves (fun _ => False) (Unentered lateTicket)) missed later ∧
    later.positions = [2, 2, 1, 1, 1] ∧
    ∃ φ heard, later.heard = missed.heard ++ heard ∧
      Since (fun _ => False) lateTicket φ heard ∧
        ∀ ended, later.plan = .pure ended → ∃ e, ended = .error e ∧ φ = .failed e := by
  let start := drive lateTicket (opening lateTicket (.blocking none) busyGate)
    (goOn 9 ++ .sent (.lpop lateTicket.queueKey 3) :: goOn 4)
  let rounds := goOn 5 ++ .sent (.rpush lateTicket.queueKey "4") :: goOn 5
  have hlooks : (start.map command?) = some (some (.lpos lateTicket.queueKey lateTicket.id)) := by
    decide +kernel
  have hqueue : start.map (fun vigil => (vigil.keys.items lateTicket.queueKey, vigil.keys.others)) =
      some ([], []) := by
    decide +kernel
  have hpositions : (start.bind fun vigil => (next? lateTicket vigil .go).bind fun missed =>
      (drive lateTicket missed rounds).map positions) = some [2, 2, 1, 1, 1] := by
    decide +kernel
  rcases Option.bind_eq_some_iff.mp hpositions with ⟨vigil, hvigil, hrest⟩
  rcases Option.bind_eq_some_iff.mp hrest with ⟨missed, hmissed, hlater⟩
  rcases Option.map_eq_some_iff.mp hlater with ⟨later, hdrive, htold⟩
  rw [hvigil] at hlooks hqueue
  have hcommand : vigil.command? = some (.lpos lateTicket.queueKey lateTicket.id) :=
    Option.some.inj hlooks
  have hlists : vigil.keys.Lists lateTicket.queueKey [] := by
    rcases Prod.mk.inj (Option.some.inj hqueue) with ⟨hitems, hothers⟩
    refine ⟨?_, hitems⟩
    rw [hothers]
    exact List.not_mem_nil
  have hunlimited : ∀ limit, Wait.blocking none ≠ Wait.blocking (some (limit : Float)) := by
    intro limit heq
    cases heq
  have hbefore : Relation.ReflTransGen (Moves (fun _ => False) fun _ _ => True)
      (opening lateTicket (.blocking none) busyGate) vigil :=
    drive_moves hvigil fun _ _ _ => trivial
  have hmisses : Misses (fun _ => False) lateTicket vigil missed :=
    misses_of_next? hcommand hlists hmissed
  have hafter : Relation.ReflTransGen (Moves (fun _ => False) (Unentered lateTicket)) missed
      later :=
    drive_moves hdrive fun _ _ => unentered_of_disturbed
  exact ⟨vigil, missed, later, hbefore, hmisses, hafter, htold,
    stranded_for_ever rfl hunlimited hbefore hmisses hafter⟩

end Vigil
end Turnstile
