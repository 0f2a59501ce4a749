import Turnstile.Proofs.Plan.Passage
import Turnstile.Proofs.Vigil.Basic

/-!
# The rounds of a wait

Where nothing fails, a wait without a limit of time is settled by the positions that it is told.  It
goes round, with one estimate, one sleep and one look in each round, until it is told a position
that settles the matter, and it ends as that position says.  If it is never told such a position, it
never ends.

What is shown of a wait is all that it asks for, apart from looks at the clock and lines in the
journal.

## Main definitions

* `Smooth` - surroundings in which nothing fails.
* `told` - the positions that a waiter is told.
* `Wait.entering`, `Wait.round` - what a wait shows on its way in, and in each round.

## Main statements

* `Wait.settled_by_positions` - when and how a wait ends, and what it has shown by then.
-/

namespace Turnstile

open Redis

variable {τ : Type}

/-- The positions that a waiter is told: the length of the queue less one when it has entered, and
then where it is found. -/
def told (length : Nat) (rank : Nat → Option Nat) : Nat → Int
  | 0 => length - 1
  | looks + 1 => positionOfRank (rank looks)

/-- A position at which a wait ends: the waiter is admitted there, or it is too far back. -/
def TicketForm.Settles (form : TicketForm τ) (position : Int) : Prop :=
  position < form.capacity ∨ 0 < form.maxPosition ∧ form.maxPosition < position

instance (form : TicketForm τ) (position : Int) : Decidable (form.Settles position) :=
  inferInstanceAs (Decidable (_ ∨ _))

theorem TicketForm.verdict_eq_waiting {form : TicketForm τ} {position : Int}
    (h : ¬ form.Settles position) : form.verdict position = .waiting := by
  unfold Settles at h
  rw [not_or] at h
  unfold verdict
  rw [if_neg h.1, if_neg h.2]

variable [Seconds τ]

def Ticket.outcome (ticket : Ticket τ) (position : Int) : Except (Failure τ) Unit :=
  if position < ticket.capacity then .ok ()
  else .error (.plain (.positionExceeded position ticket.maxPosition))

/-- Whether a request is neither a look at the clock nor a line in the journal. -/
def Outward : (Premises τ).Request → Bool
  | .inr .now => false
  | .inr (.record ..) => false
  | _ => true

def isLook : Plan.Exchange (Premises τ) → Bool
  | ⟨.inl (.call _ (.lpos ..)), _⟩ => true
  | _ => false

def looks (heard : List (Plan.Exchange (Premises τ))) : Nat :=
  heard.countP isLook

theorem looks_append (heard later : List (Plan.Exchange (Premises τ))) :
    looks (heard ++ later) = looks heard + later.countP isLook :=
  List.countP_append

/-- Surroundings in which nothing fails.  The queue has some length once the waiter has entered, and
each look finds it at some rank or nowhere.  Estimates are not negative, and may depend on how often
the waiter has looked. -/
structure Smooth (ticket : Ticket τ) (client : Client) (length : Nat) (rank : Nat → Option Nat)
    (estimator : Nat → Int → Int → τ → τ) (surroundings : Plan.Surroundings (Premises τ)) :
    Prop where
  dial : ∀ heard, surroundings heard (.inl (.dial ticket.endpoint)) = client
  ping : ∀ heard, surroundings heard (.inl (.call client .ping)) = Except.ok ()
  push : ∀ heard, surroundings heard (.inl (.call client (.rpush ticket.queueKey ticket.id))) =
    Except.ok length
  announce : ∀ heard, surroundings heard (.inr (.announce (length - 1))) = Except.ok ()
  estimate : ∀ heard count, looks heard = count →
    surroundings heard
        (.inr (.estimate (told length rank count) ticket.capacity ticket.baseSleep)) =
      Except.ok (estimator count (told length rank count) ticket.capacity ticket.baseSleep)
  notNegative : ∀ count,
    0 ≤ estimator count (told length rank count) ticket.capacity ticket.baseSleep
  /-- However long they are: that a platform cannot sleep for more than about 9.2e9 seconds is left
  out. -/
  sleep : ∀ heard duration, 0 ≤ duration →
    surroundings heard (.inr (.sleep duration)) = Except.ok ()
  look : ∀ heard count, looks heard = count →
    surroundings heard (.inl (.call client (.lpos ticket.queueKey ticket.id))) =
      Except.ok (rank count)
  measured : ∀ heard heard' (started time : τ), surroundings heard (.inr .now) = started →
    surroundings heard' (.inr .now) = time → ∃ ms, Seconds.toMillis (time - started) = .ok ms

namespace Wait

def limit? : Wait τ → Option τ
  | .blocking limit => limit
  | .cooperative _ => none

def isWatched : Wait τ → Bool
  | .blocking _ => false
  | .cooperative watched => watched

/-- What a wait shows on its way into the queue. -/
def entering (ticket : Ticket τ) (client : Client) (length : Nat) (wait : Wait τ) :
    List (Plan.Exchange (Premises τ)) :=
  [⟨.inl (.dial ticket.endpoint), client⟩, ⟨.inl (.call client .ping), Except.ok ()⟩,
    ⟨.inl (.call client (.rpush ticket.queueKey ticket.id)), Except.ok length⟩] ++
  if wait.isWatched then [⟨.inr (.announce (length - 1)), Except.ok ()⟩] else []

/-- What a waiter shows between two positions that it is told. -/
def round (ticket : Ticket τ) (client : Client) (duration : τ) (position : Int)
    (rank : Option Nat) : List (Plan.Exchange (Premises τ)) :=
  [⟨.inr (.estimate position ticket.capacity ticket.baseSleep), Except.ok duration⟩,
    ⟨.inr (.sleep duration), Except.ok ()⟩,
    ⟨.inl (.call client (.lpos ticket.queueKey ticket.id)), Except.ok rank⟩]

def rounds (ticket : Ticket τ) (client : Client) (length : Nat) (rank : Nat → Option Nat)
    (estimator : Nat → Int → Int → τ → τ) (count : Nat) : List (Plan.Exchange (Premises τ)) :=
  (List.range count).flatMap fun looks =>
    round ticket client
      (estimator looks (told length rank looks) ticket.capacity ticket.baseSleep)
      (told length rank looks) (rank looks)

def remainder (ticket : Ticket τ) (client : Client) (started : τ) (wait : Wait τ)
    (position : Int) : Plan (Premises τ) τ (Except (Failure τ) Unit) :=
  onPremises <| Action.ensuring (Service.close ⟨client, ticket.queueKey, true⟩) <|
    Action.repeatFrom position fun position =>
      match wait with
      | .blocking limit =>
          Blocking.look ⟨client, ticket.queueKey, true⟩ ticket limit started position
      | .cooperative _ => Cooperative.look ⟨client, ticket.queueKey, true⟩ ticket started position

variable {ticket : Ticket τ} {client : Client} {length : Nat} {rank : Nat → Option Nat}
  {estimator : Nat → Int → Int → τ → τ} {surroundings : Plan.Surroundings (Premises τ)}
  {wait : Wait τ} {count : Nat}
  {course : Plan.Course (Premises τ) τ (Except (Failure τ) Unit)}

/-- What remains of a wait in the round after some number of looks. -/
def AtRound (surroundings : Plan.Surroundings (Premises τ)) (ticket : Ticket τ) (client : Client)
    (wait : Wait τ) (count : Nat) (position : Int)
    (course : Plan.Course (Premises τ) τ (Except (Failure τ) Unit)) : Prop :=
  looks course.heard = count ∧ ∃ earlier started, surroundings earlier (.inr .now) = started ∧
    course.plan = wait.remainder ticket client started position

theorem arrives_entering (h : Smooth ticket client length rank estimator surroundings)
    (hlimit : wait.limit? = none) :
    Plan.Arrives Outward surroundings ⟨[], wait.plan ticket⟩ (wait.entering ticket client length)
      (AtRound surroundings ticket client wait 0 (length - 1)) := by
  cases wait with
  | blocking limit =>
      cases hlimit
      apply Plan.Arrives.ask rfl (h.dial _)
      apply Plan.Arrives.ask rfl (h.ping _)
      apply Plan.Arrives.hidden rfl
      intro started hstarted
      apply Plan.Arrives.ask rfl (h.push _)
      apply Plan.Arrives.hidden rfl
      intro _ _
      exact Plan.Arrives.here ⟨rfl, _, _, hstarted, rfl⟩
  | cooperative watched =>
      apply Plan.Arrives.ask rfl (h.dial _)
      apply Plan.Arrives.ask rfl (h.ping _)
      apply Plan.Arrives.hidden rfl
      intro started hstarted
      apply Plan.Arrives.ask rfl (h.push _)
      cases watched with
      | false =>
          apply Plan.Arrives.hidden rfl
          intro _ _
          exact Plan.Arrives.here ⟨rfl, _, _, hstarted, rfl⟩
      | true =>
          apply Plan.Arrives.ask rfl (h.announce _)
          apply Plan.Arrives.hidden rfl
          intro _ _
          exact Plan.Arrives.here ⟨rfl, _, _, hstarted, rfl⟩

theorem arrives_round (h : Smooth ticket client length rank estimator surroundings)
    (hlimit : wait.limit? = none) (hwaits : ¬ ticket.Settles (told length rank count))
    (hround : AtRound surroundings ticket client wait count (told length rank count) course) :
    Plan.Arrives Outward surroundings course
      (round ticket client
        (estimator count (told length rank count) ticket.capacity ticket.baseSleep)
        (told length rank count) (rank count))
      (AtRound surroundings ticket client wait (count + 1) (told length rank (count + 1))) := by
  have hverdict : ticket.verdict (told length rank count) = .waiting :=
    TicketForm.verdict_eq_waiting hwaits
  rcases course with ⟨heard, plan⟩
  rcases hround with ⟨hlooks, earlier, started, hstarted, rfl⟩
  change looks heard = count at hlooks
  have hduration := h.notNegative count
  have hnext : told length rank (count + 1) = positionOfRank (rank count) := rfl
  rw [hnext]
  cases wait with
  | blocking limit =>
      cases hlimit
      apply Plan.Arrives.unroll
      unfold Blocking.look
      dsimp only
      rw [hverdict]
      apply Plan.Arrives.ask rfl (h.estimate _ _ hlooks)
      apply Plan.Arrives.ask rfl (h.sleep _ _ hduration)
      apply Plan.Arrives.ask rfl (h.look _ count (by simp only [looks_append, hlooks]; rfl))
      apply Plan.Arrives.hidden rfl
      intro _ _
      apply Plan.Arrives.here
      constructor
      · simp only [looks_append, hlooks]
        rfl
      · exact ⟨_, _, hstarted, rfl⟩
  | cooperative watched =>
      apply Plan.Arrives.unroll
      unfold Cooperative.look
      dsimp only
      rw [hverdict]
      apply Plan.Arrives.ask rfl (h.estimate _ _ hlooks)
      apply Plan.Arrives.hidden rfl
      intro _ _
      apply Plan.Arrives.ask rfl (h.sleep _ _ hduration)
      apply Plan.Arrives.ask rfl (h.look _ count (by simp only [looks_append, hlooks]; rfl))
      cases hrank : rank count with
      | none =>
          apply Plan.Arrives.hidden rfl
          intro _ _
          apply Plan.Arrives.hidden rfl
          intro _ _
          apply Plan.Arrives.here
          constructor
          · simp only [looks_append, hlooks]
            rfl
          · exact ⟨_, _, hstarted, rfl⟩
      | some place =>
          apply Plan.Arrives.hidden rfl
          intro _ _
          apply Plan.Arrives.here
          constructor
          · simp only [looks_append, hlooks]
            rfl
          · exact ⟨_, _, hstarted, rfl⟩

theorem arrives_admitted {α : Type} {step : Int → Operation Queue τ (Int ⊕ Unit)} {mode : Mode}
    {entry : Int → Entry τ} {position : Int} {started : τ}
    {goOn : Except (Failure τ) Unit → Plan (Premises τ) τ α}
    {heard events : List (Plan.Exchange (Premises τ))}
    {there : Plan.Course (Premises τ) τ α → Prop}
    (hmeasured : ∀ heard (time : τ), surroundings heard (.inr .now) = time →
      ∃ ms, Seconds.toMillis (time - started) = .ok ms)
    (hstep : step position = do
      let elapsed ← Service.elapsedSince started
      Service.record mode (entry elapsed)
      pure (.inr ()))
    (hrest : ∀ heard, Plan.Arrives Outward surroundings ⟨heard, goOn (.ok ())⟩ events there) :
    Plan.Arrives Outward surroundings
      ⟨heard, (onPremises (Action.repeatFrom position step)).bind goOn⟩ events there := by
  apply Plan.Arrives.unroll
  dsimp only
  rw [hstep]
  apply Plan.Arrives.hidden rfl
  intro time htime
  rcases hmeasured _ time htime with ⟨ms, hms⟩
  dsimp only [Plan.bind, Function.comp, ExceptT.bindCont]
  rw [hms]
  apply Plan.Arrives.hidden rfl
  intro _ _
  exact hrest _

theorem arrives_granted {started : τ} {position : Int}
    {heard : List (Plan.Exchange (Premises τ))}
    (hmeasured : ∀ heard (time : τ), surroundings heard (.inr .now) = time →
      ∃ ms, Seconds.toMillis (time - started) = .ok ms)
    (hfree : position < ticket.capacity) :
    Plan.Arrives Outward surroundings ⟨heard, wait.remainder ticket client started position⟩
      [⟨.inl (.hangUp client), ()⟩] fun course' => course'.plan = .pure (.ok ()) := by
  have hverdict : ticket.verdict position = .admitted := if_pos hfree
  unfold remainder
  rw [onPremises_ensuring]
  cases wait with
  | blocking limit =>
      apply arrives_admitted hmeasured
      · unfold Blocking.look
        rw [hverdict]
      · intro heard
        apply Plan.Arrives.ask rfl rfl
        exact Plan.Arrives.here rfl
  | cooperative watched =>
      apply arrives_admitted hmeasured
      · unfold Cooperative.look
        rw [hverdict]
      · intro heard
        apply Plan.Arrives.ask rfl rfl
        exact Plan.Arrives.here rfl

theorem arrives_settled {started : τ} {position : Int}
    {heard : List (Plan.Exchange (Premises τ))}
    (hmeasured : ∀ heard (time : τ), surroundings heard (.inr .now) = time →
      ∃ ms, Seconds.toMillis (time - started) = .ok ms)
    (hsettles : ticket.Settles position) :
    Plan.Arrives Outward surroundings ⟨heard, wait.remainder ticket client started position⟩
      [⟨.inl (.hangUp client), ()⟩]
      fun course' => course'.plan = .pure (ticket.outcome position) := by
  by_cases hadmitted : position < ticket.capacity
  · have houtcome : ticket.outcome position = .ok () := if_pos hadmitted
    rw [houtcome]
    exact arrives_granted hmeasured hadmitted
  · have hrejected := hsettles.resolve_left hadmitted
    have hverdict : ticket.verdict position = .rejected := by
      unfold TicketForm.verdict
      rw [if_neg hadmitted, if_pos hrejected]
    have houtcome : ticket.outcome position =
        .error (.plain (.positionExceeded position ticket.maxPosition)) := if_neg hadmitted
    rw [houtcome]
    cases wait with
    | blocking limit =>
        apply Plan.Arrives.unroll
        unfold Blocking.look
        dsimp only
        rw [hverdict]
        apply Plan.Arrives.ask rfl rfl
        exact Plan.Arrives.here rfl
    | cooperative watched =>
        apply Plan.Arrives.unroll
        unfold Cooperative.look
        dsimp only
        rw [hverdict]
        apply Plan.Arrives.hidden rfl
        intro _ _
        apply Plan.Arrives.ask rfl rfl
        exact Plan.Arrives.here rfl

theorem arrives_end {position : Int}
    (h : Smooth ticket client length rank estimator surroundings) (hsettles : ticket.Settles position)
    (hround : AtRound surroundings ticket client wait count position course) :
    Plan.Arrives Outward surroundings course [⟨.inl (.hangUp client), ()⟩]
      fun course' => course'.plan = .pure (ticket.outcome position) := by
  rcases course with ⟨heard, plan⟩
  rcases hround with ⟨hlooks, earlier, (started : τ), hstarted, rfl⟩
  refine arrives_settled ?_ hsettles
  intro heard time htime
  exact h.measured earlier heard started time hstarted htime

theorem rounds_succ (count : Nat) :
    rounds ticket client length rank estimator (count + 1) =
      rounds ticket client length rank estimator count ++
        round ticket client
          (estimator count (told length rank count) ticket.capacity ticket.baseSleep)
          (told length rank count) (rank count) := by
  unfold rounds
  rw [List.range_succ, List.flatMap_append, List.flatMap_singleton]

theorem length_rounds (count : Nat) :
    (rounds ticket client length rank estimator count).length = 3 * count := by
  induction count with
  | zero => rfl
  | succ count ih =>
      rw [rounds_succ, List.length_append, ih]
      rfl

/-- A wait that was told no position that settles it goes on to its next round. -/
theorem arrives_rounds (h : Smooth ticket client length rank estimator surroundings)
    (hlimit : wait.limit? = none)
    (hwaits : ∀ i < count, ¬ ticket.Settles (told length rank i)) :
    Plan.Arrives Outward surroundings ⟨[], wait.plan ticket⟩
      (wait.entering ticket client length ++ rounds ticket client length rank estimator count)
      (AtRound surroundings ticket client wait count (told length rank count)) := by
  induction count with
  | zero =>
      show Plan.Arrives _ _ _ (_ ++ []) _
      rw [List.append_nil]
      exact arrives_entering h hlimit
  | succ count ih =>
      rw [rounds_succ, ← List.append_assoc]
      have hbefore : ∀ i < count, ¬ ticket.Settles (told length rank i) :=
        fun i hi => hwaits i (Nat.lt_succ_of_lt hi)
      apply (ih hbefore).trans
      intro course hround
      exact arrives_round h hlimit (hwaits count (Nat.lt_succ_self count)) hround

/-- A wait without a limit, where nothing fails, is settled by the positions that it is told.  If
one of them settles it, then it ends at the first such position.  By then it has entered its queue
once, and after each earlier position it has slept as long as was estimated there and looked once.
It has its slot if that position is below capacity, whatever the largest tolerated position is, and
else it is rejected there.  If no position settles it, then it goes round for ever. -/
theorem settled_by_positions (h : Smooth ticket client length rank estimator surroundings)
    (hlimit : wait.limit? = none) :
    (∀ count, ticket.Settles (told length rank count) →
      (∀ i < count, ¬ ticket.Settles (told length rank i)) →
        (wait.plan ticket).Finishes Outward surroundings
          (wait.entering ticket client length ++ rounds ticket client length rank estimator count ++
            [⟨.inl (.hangUp client), ()⟩])
          (ticket.outcome (told length rank count))) ∧
      ((∀ i, ¬ ticket.Settles (told length rank i)) →
        (∀ count, (wait.plan ticket).Reaches Outward surroundings
          (wait.entering ticket client length ++
            rounds ticket client length rank estimator count)) ∧
        ∀ events outcome, ¬ (wait.plan ticket).Finishes Outward surroundings events outcome) := by
  constructor
  · intro count hsettles hwaits
    apply Plan.Arrives.finishes
    apply (arrives_rounds h hlimit hwaits).trans
    intro course hround
    exact arrives_end h hsettles hround
  · intro hwaits
    constructor
    · intro count
      exact (arrives_rounds h hlimit fun i _ => hwaits i).reaches
    · apply Plan.not_finishes_of_arrives
      intro bound
      exists wait.entering ticket client length ++
        rounds ticket client length rank estimator bound
      constructor
      · rw [List.length_append, length_rounds]
        omega
      · apply (arrives_rounds h hlimit fun i _ => hwaits i).mono
        rintro course ⟨_, earlier, started, _, hplan⟩
        rw [hplan]
        rfl

/-!
## Three waiters
-/

def patience (looks : Nat) (_ _ : Int) (base : Float) : Float :=
  if looks = 0 then base else 0.5

def stillPremises (length : Nat) (rank : Nat → Option Nat) :
    Plan.Surroundings (Premises Float)
  | _, .inl (.dial endpoint) => (⟨0, endpoint, {}⟩ : Client)
  | _, .inl (.call _ .ping) => Except.ok ()
  | _, .inl (.call _ (.rpush ..)) => Except.ok length
  | heard, .inl (.call _ (.lpos ..)) => Except.ok (rank (looks heard))
  | _, .inl (.call _ (.lpop ..)) => Except.ok (none : Option (List Item))
  | _, .inl (.call _ (.expire ..)) => Except.ok true
  | _, .inl (.call _ (.llen _)) => Except.ok length
  | _, .inl (.hangUp _) => ()
  | heard, .inr (.estimate position capacity base) =>
      Except.ok (patience (looks heard) position capacity base)
  | _, .inr (.sleep _) => Except.ok ()
  | _, .inr .now => (0 : Float)
  | _, .inr (.record ..) => ()
  | _, .inr (.announce _) => Except.ok ()
  | _, .inr .freshId => "3"
  | _, .inr (.hold _) => ()
  | _, .inr .takeOldest => (none : Option (Ticket Float))

theorem smooth_stillPremises {ticket : Ticket Float} (hbase : 0 ≤ ticket.baseSleep)
    (length : Nat) (rank : Nat → Option Nat) :
    Smooth ticket ⟨0, ticket.endpoint, {}⟩ length rank patience (stillPremises length rank) where
  dial _ := rfl
  ping _ := rfl
  push _ := rfl
  announce _ := rfl
  estimate heard count hcount := by
    subst hcount
    rfl
  notNegative count := by
    unfold patience
    split
    · exact hbase
    · decide +kernel
  sleep _ _ _ := rfl
  look heard count hcount := by
    subst hcount
    rfl
  measured heard heard' started time hstarted htime := by
    cases hstarted
    cases htime
    have hsome : (Seconds.toMillis (0 - 0 : Float)).toOption.isSome = true := by decide +kernel
    cases hms : Seconds.toMillis (0 - 0 : Float) with
    | ok ms => exact ⟨ms, hms⟩
    | error e =>
        rw [hms] at hsome
        cases hsome

/-- One waiter is not found, taken to stand at position one, and then found in front.  A hasty one
is rejected when it is found further back than it was.  One that is never found again waits for
ever. -/
theorem settled_by_positions_of_stillPremises :
    (∃ rank : Nat → Option Nat, [0, 1, 2, 3].map (told 3 rank) = [2, 2, 1, 0] ∧
      ((cooperative true).plan Vigil.lateTicket).Finishes Outward (stillPremises 3 rank)
        ((cooperative true).entering Vigil.lateTicket ⟨0, defaultEndpoint, {}⟩ 3 ++
          rounds Vigil.lateTicket ⟨0, defaultEndpoint, {}⟩ 3 rank patience 3 ++
            [⟨.inl (.hangUp ⟨0, defaultEndpoint, {}⟩), ()⟩]) (.ok ())) ∧
    (∃ rank : Nat → Option Nat,
      ((blocking none).plan Vigil.hastyTicket).Finishes Outward (stillPremises 2 rank)
        ((blocking none).entering Vigil.hastyTicket ⟨0, defaultEndpoint, {}⟩ 2 ++
          rounds Vigil.hastyTicket ⟨0, defaultEndpoint, {}⟩ 2 rank patience 1 ++
            [⟨.inl (.hangUp ⟨0, defaultEndpoint, {}⟩), ()⟩])
        (.error (.plain (.positionExceeded 5 1)))) ∧
    ∀ events outcome, ¬ ((blocking none).plan Vigil.lateTicket).Finishes Outward
      (stillPremises 2 fun _ => none) events outcome := by
  have hlate : 0 ≤ Vigil.lateTicket.baseSleep := by decide +kernel
  have hhasty : 0 ≤ Vigil.hastyTicket.baseSleep := by decide +kernel
  constructor
  · exists fun looks => [some 2, none, some 0].getD looks none
    constructor
    · decide
    · have h := smooth_stillPremises hlate 3 fun looks => [some 2, none, some 0].getD looks none
      have hwatched : (cooperative true : Wait Float).limit? = none := rfl
      exact (settled_by_positions h hwatched).1 3 (by decide) (by decide)
  · have hunlimited : (blocking none : Wait Float).limit? = none := rfl
    constructor
    · exists fun _ => some 5
      have h := smooth_stillPremises hhasty 2 fun _ => some 5
      exact (settled_by_positions h hunlimited).1 1 (by decide) (by decide)
    · have h := smooth_stillPremises hlate 2 fun _ => none
      have hwaits : ∀ i, ¬ Vigil.lateTicket.Settles (told 2 (fun _ => none) i) := by
        intro i
        cases i with
        | zero => decide
        | succ i => show ¬ Vigil.lateTicket.Settles (positionOfRank none); decide
      exact ((settled_by_positions h hunlimited).2 hwaits).2

end Wait
end Turnstile
