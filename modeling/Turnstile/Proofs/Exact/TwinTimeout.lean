import Turnstile.Proofs.Exact.Standstill
import Turnstile.Proofs.Vigil.Outlook

/-!
# Two twins that time out

A request for a slot with a limit comes to a queue that stands still, and its position does not
admit it.  Both a blocking and a cooperative request then fail in time, give back an entry, renew
the expiry and hold nothing.  What they do not have in common is the key that their failures name:
a blocking one names the list that holds the queue, and a cooperative one the semaphore.

A blocking waiter goes by a clock that shows whole milliseconds, so that it may sleep for half of
one beyond its limit, in naps that have a least length.  A cooperative waiter is woken when its
limit has passed.  Left alone it would go on for ever.

## Main definitions

* `Standstill.Rounds` - how often a blocking waiter can still sleep.
* `Standstill.TimedOut` - how a request ends that has timed out.

## Main statements

* `Standstill.ends_blocking_wait` and `Standstill.surely_followWithin` - how the waits end.
* `Standstill.timeouts_name_different_keys` - how the requests end.
-/

namespace Turnstile

open Redis

namespace Standstill

variable {still : Standstill} {line : List String} {renewed : List (String × Int)}
  {past : Heard ℚ}

section Waits

variable {must cut : Prop} {ticket : Ticket ℚ} {queue : Queue}
  {limit began started deadline duration : ℚ}

theorem idxOf?_concat {id : String} (hfresh : id ∉ line) :
    (line ++ [id]).idxOf? id = some line.length := by
  induction line with
  | nil => simp [List.idxOf?_cons]
  | cons head rest ih =>
      rw [List.mem_cons, not_or] at hfresh
      rw [List.cons_append, List.idxOf?_cons, ih hfresh.2]
      simp [Ne.symm hfresh.1]

theorem does_find (h : still.Stage queue.key (line ++ [ticket.id]) renewed past)
    (hfresh : ticket.id ∉ line) :
    still.Does deadline must cut past began (Service.position queue ticket.id)
      fun past' finish rank => rank = some line.length ∧ finish = began ∧
        still.Stage queue.key (line ++ [ticket.id]) renewed past' := by
  rw [← idxOf?_concat hfresh]
  exact does_position h ticket.id

theorem position_of_length : ((line.length + 1 : Nat) : Int) - 1 = line.length := by
  omega

/-!
## Blocking waits
-/

/-- The milliseconds that a clock shows some time after it was started. -/
def shown (elapsed : ℚ) : Int :=
  nearest (elapsed * 1000)

def untilLimit (limit elapsed : ℚ) : ℚ :=
  limit - Seconds.ofMillis (shown elapsed)

theorem ends_allowedSleep (h : still.Stage key line renewed past) :
    (still.setting deadline).Ends must False past began
      (onPremises (Blocking.allowedSleep ticket (some limit) started duration))
      fun past' finish ended => still.Stage key line renewed past' ∧ finish = began ∧
        (ended = .error (.plain (.acquireTimeout ticket.queueKey (some limit)
            (shown (began - started)))) ∨
          ¬ untilLimit limit (began - started) ≤ 0 ∧
            ended = .ok (min duration (untilLimit limit (began - started)))) := by
  apply ends_then (does_elapsedSince h started)
  rintro past₁ time₁ ms ⟨rfl, rfl, hstage⟩
  dsimp only
  split
  · apply ends_then (does_elapsedSince hstage started)
    rintro past₂ time₂ ms ⟨rfl, rfl, hstage'⟩
    exact Plan.Setting.ends_pure ⟨hstage', rfl, Or.inl rfl⟩
  · rename_i hleft
    refine Plan.Setting.ends_pure ⟨hstage, rfl, Or.inr ⟨hleft, ?_⟩⟩
    exact congrArg Except.ok (earlier_eq_min _ _)

theorem ends_blocking_look (h : still.Stage queue.key (line ++ [ticket.id]) renewed past)
    (hfresh : ticket.id ∉ line) (hwaits : ¬ ticket.Settles line.length)
    (hduration : standardEstimate still.root line.length ticket.capacity ticket.baseSleep =
      .ok duration) :
    (still.setting deadline).Ends must False past began
      (onPremises (Blocking.look queue ticket (some limit) started line.length))
      fun past' finish ended => still.Stage queue.key (line ++ [ticket.id]) renewed past' ∧
        (ended = .error (.plain (.acquireTimeout ticket.queueKey (some limit)
            (shown (began - started)))) ∨
          ¬ untilLimit limit (began - started) ≤ 0 ∧ ended = .ok (.inl line.length) ∧
            finish = began + min duration (untilLimit limit (began - started))) := by
  unfold Blocking.look
  rw [TicketForm.verdict_eq_waiting hwaits]
  apply ends_then (does_estimate h hduration)
  rintro past₁ time₁ estimated ⟨rfl, rfl, hstage⟩
  rw [onPremises_bind]
  apply Plan.Setting.ends_bind (ends_allowedSleep hstage)
  rintro past₂ time₂ _ ⟨hstage₂, rfl, rfl | ⟨hleft, rfl⟩⟩
  · exact Plan.Setting.ends_pure ⟨hstage₂, Or.inl rfl⟩
  · dsimp only
    rw [onPremises_bind]
    apply Plan.Setting.ends_bind (ends_sleep hstage₂ _)
    rintro past₃ time₃ _ ⟨hstage₃, ⟨rfl, rfl, _⟩ | ⟨_, _, hcut⟩⟩
    · apply ends_then (does_find hstage₃ hfresh)
      rintro past₄ time₄ _ ⟨rfl, rfl, hstage₄⟩
      apply ends_then (does_record hstage₄ _ _)
      rintro past₅ time₅ _ ⟨rfl, hstage₅⟩
      exact Plan.Setting.ends_pure ⟨hstage₅, Or.inr ⟨hleft, rfl, rfl⟩⟩
    · exact hcut.elim

/-- A blocking waiter sleeps for half a millisecond more than its limit at most, and each time for
`least` at least.  That can be so `count` times more at most. -/
structure Rounds (limit least started : ℚ) (count : Nat) (time : ℚ) : Prop where
  within : time - started ≤ limit + 1 / 2000
  fewer : limit + 1 / 2000 < time - started + count * least

theorem Rounds.next {time : ℚ} {count : Nat}
    (h : Rounds limit (min duration (grain limit)) started count time)
    (hleft : ¬ untilLimit limit (time - started) ≤ 0) :
    ∃ count' < count, Rounds limit (min duration (grain limit)) started count'
      (time + min duration (untilLimit limit (time - started))) := by
  -- As long as the clock leaves some time it leaves a grain, and what it leaves is not half a
  -- millisecond more than there is.
  have hround := abs_le.mp (abs_sub_nearest_le ((time - started) * 1000))
  have hleft' : untilLimit limit (time - started) =
      limit - nearest ((time - started) * 1000) / 1000 := rfl
  have hslept : min duration (grain limit) ≤ min duration (untilLimit limit (time - started)) :=
    min_le_min_left _ (grain_le hleft)
  have hcut : min duration (untilLimit limit (time - started)) ≤
      untilLimit limit (time - started) := min_le_right _ _
  have hfewer := h.fewer
  cases count with
  | zero =>
      rw [Nat.cast_zero, zero_mul, add_zero] at hfewer
      exact absurd h.within (not_le.mpr hfewer)
  | succ count =>
      rw [Nat.cast_succ, add_mul, one_mul] at hfewer
      refine ⟨count, Nat.lt_succ_self count, ?_, ?_⟩
      · linarith
      · linarith

theorem ends_blocking_wait (h : still.Stage ticket.queueKey line renewed past)
    (hfresh : ticket.id ∉ line) (hwaits : ¬ ticket.Settles line.length) (hlimit : 0 < limit) :
    (still.setting deadline).Ends must False past began
      (onPremises (Blocking.wait ticket (some limit)))
      fun past' _ ended => still.Stage ticket.queueKey (line ++ [ticket.id]) renewed past' ∧
        ∃ ms, ended = .error (.plain (.acquireTimeout ticket.queueKey (some limit) ms)) := by
  rcases exists_standardEstimate still.root line.length ticket.capacity ticket.baseSleep_pos with
    ⟨duration, hpositive, hduration⟩
  have hleast : 0 < min duration (grain limit) := lt_min hpositive (grain_pos limit)
  rcases exists_nat_gt ((limit + 1 / 2000) / min duration (grain limit)) with ⟨count, hcount⟩
  apply ends_then (does_connect h ticket.endpoint ticket.queueKey)
  rintro past₁ time₁ queue ⟨hqueue, rfl, hopened⟩
  rw [← hqueue] at hopened ⊢
  apply ends_closing
  apply ends_then (does_lift (ends_now hopened))
  rintro past₂ time₂ _ ⟨rfl, rfl, hstage₂⟩
  apply ends_then (does_push hstage₂ ticket.id)
  rintro past₃ time₃ _ ⟨rfl, rfl, hstage₃⟩
  rw [position_of_length]
  apply ends_then (does_record hstage₃ _ _)
  rintro past₄ time₄ _ ⟨rfl, hentered⟩
  have hrounds : Rounds limit (min duration (grain limit)) time₄ count time₄ := by
    rw [div_lt_iff₀ hleast] at hcount
    constructor
    · linarith
    · linarith
  apply ends_repeatFrom (fun count past time (position : Int) => position = line.length ∧
    still.Stage queue.key (line ++ [ticket.id]) renewed past ∧
      Rounds limit (min duration (grain limit)) time₄ count time) _ ⟨rfl, hentered, hrounds⟩
  rintro count past time _ ⟨rfl, hstage, hrounds⟩
  apply (ends_blocking_look hstage hfresh hwaits hduration).mono
  rintro past' finish _ ⟨hstage', rfl | ⟨hleft, rfl, rfl⟩⟩
  · rw [← hqueue]
    exact Or.inl ⟨_, rfl, hstage', _, rfl⟩
  · rcases hrounds.next hleft with ⟨count', hless, hrounds'⟩
    exact Or.inr ⟨_, count', rfl, hless, rfl, hstage', hrounds'⟩

/-!
## Cooperative waits
-/

theorem ends_cooperative_look
    (h : still.Stage queue.key (line ++ [ticket.id]) renewed past) (hfresh : ticket.id ∉ line)
    (hwaits : ¬ ticket.Settles line.length)
    (hduration : standardEstimate still.root line.length ticket.capacity ticket.baseSleep =
      .ok duration) :
    (still.setting deadline).Ends must cut past began
      (onPremises (Cooperative.look queue ticket started line.length))
      fun past' finish ended => past.length < past'.length ∧
        still.Stage queue.key (line ++ [ticket.id]) renewed past' ∧
        (ended = .ok (.inl line.length) ∧ finish = began + duration ∧ (cut → finish ≤ deadline) ∨
          ended = .error .interrupted ∧ finish = deadline ∧ cut) := by
  unfold Cooperative.look
  rw [TicketForm.verdict_eq_waiting hwaits]
  have hlook : (still.setting deadline).Ends must cut past began
      (onPremises do
        let duration ← Service.estimate line.length ticket.capacity ticket.baseSleep
        Service.record .cooperative (.sleeping line.length ticket.capacity duration)
        Service.sleep duration
        let rank ← Service.position queue ticket.id
        if rank.isNone then
          Service.record .cooperative (.missing ticket.id ticket.queueKey absentPosition)
        Service.record .cooperative (.moved (positionOfRank rank))
        pure (.inl (positionOfRank rank)))
      fun past' finish (ended : Except (Failure ℚ) (Int ⊕ Unit)) =>
        still.Stage queue.key (line ++ [ticket.id]) renewed past' ∧
        (ended = .ok (.inl line.length) ∧ finish = began + duration ∧ (cut → finish ≤ deadline) ∨
          ended = .error .interrupted ∧ finish = deadline ∧ cut) := by
    apply ends_then (does_estimate h hduration)
    rintro past₁ time₁ estimated ⟨rfl, rfl, hstage₁⟩
    apply ends_then (does_record hstage₁ _ _)
    rintro past₂ time₂ _ ⟨rfl, hstage₂⟩
    rw [onPremises_bind]
    apply Plan.Setting.ends_bind (ends_sleep hstage₂ _)
    rintro past₃ time₃ _ ⟨hstage₃, ⟨rfl, rfl, hearlier⟩ | ⟨rfl, rfl, hcut⟩⟩
    · apply ends_then (does_find hstage₃ hfresh)
      rintro past₄ time₄ _ ⟨rfl, rfl, hstage₄⟩
      apply ends_then (does_record hstage₄ _ _)
      rintro past₅ time₅ _ ⟨rfl, hstage₅⟩
      exact Plan.Setting.ends_pure ⟨hstage₅, Or.inl ⟨rfl, rfl, hearlier⟩⟩
    · exact Plan.Setting.ends_pure ⟨hstage₃, Or.inr ⟨rfl, rfl, hcut⟩⟩
  exact Plan.Setting.ends_grows hlook

theorem ends_looks (h : still.Stage queue.key (line ++ [ticket.id]) renewed past)
    (hfresh : ticket.id ∉ line) (hwaits : ¬ ticket.Settles line.length) :
    (still.setting deadline).Ends cut cut past began
      (onPremises (Action.repeatFrom (line.length : Int) (Cooperative.look queue ticket started)))
      fun past' finish ended => still.Stage queue.key (line ++ [ticket.id]) renewed past' ∧
        ended = .error .interrupted ∧ finish = deadline ∧ cut := by
  rcases exists_standardEstimate still.root line.length ticket.capacity ticket.baseSleep_pos with
    ⟨duration, hpositive, hduration⟩
  by_cases hcut : cut
  -- A sleep that is not interrupted is over by the deadline, so there is only room for some.
  · rcases exists_nat_gt ((deadline - began) / duration) with ⟨count, hcount⟩
    rw [div_lt_iff₀ hpositive] at hcount
    apply ends_repeatFrom (fun count past time (position : Int) => position = line.length ∧
      still.Stage queue.key (line ++ [ticket.id]) renewed past ∧
        deadline - time < count * duration) _ ⟨rfl, h, hcount⟩
    rintro count past time _ ⟨rfl, hstage, hless⟩
    apply (ends_cooperative_look hstage hfresh hwaits hduration).mono
    rintro past' finish _ ⟨_, hstage', ⟨rfl, rfl, hearlier⟩ | ⟨rfl, rfl, _⟩⟩
    · have hfinish := hearlier hcut
      cases count with
      | zero =>
          rw [Nat.cast_zero, zero_mul] at hless
          linarith
      | succ count =>
          rw [Nat.cast_succ, add_mul, one_mul] at hless
          exact Or.inr ⟨_, count, rfl, Nat.lt_succ_self count, rfl, hstage', by linarith⟩
    · exact Or.inl ⟨_, rfl, hstage', rfl, rfl, hcut⟩
  · apply never_repeatFrom hcut (fun past (position : Int) => position = line.length ∧
      still.Stage queue.key (line ++ [ticket.id]) renewed past) _ ⟨rfl, h⟩
    rintro past began _ ⟨rfl, hstage⟩
    apply (ends_cooperative_look hstage hfresh hwaits hduration).mono
    rintro past' finish _ ⟨hgrown, hstage', ⟨rfl, _, _⟩ | ⟨_, _, hinterrupted⟩⟩
    · exact ⟨_, rfl, hgrown, _, rfl, rfl, hstage'⟩
    · exact absurd hinterrupted hcut

/-- A cooperative wait ends only if it can be interrupted, and then at the deadline and with its
entry in the queue. -/
theorem ends_follow (h : still.Stage ticket.queueKey line renewed past)
    (hfresh : ticket.id ∉ line) (hwaits : ¬ ticket.Settles line.length) :
    (still.setting deadline).Ends cut cut past began
      ((Cooperative.follow ticket false).serve serveOnPremises)
      fun past' finish waited => still.Stage ticket.queueKey (line ++ [ticket.id]) renewed past' ∧
        waited = ⟨true, .error .interrupted⟩ ∧ finish = deadline ∧ cut := by
  apply Plan.Setting.ends_serve (does_connect h ticket.endpoint ticket.queueKey)
  rintro past₁ time₁ _ ⟨queue, rfl, hqueue, rfl, hopened⟩
  rw [← hqueue] at hopened ⊢
  apply Plan.Setting.ends_serve (ends_now hopened)
  rintro past₂ time₂ _ ⟨rfl, rfl, hstage₂⟩
  apply Plan.Setting.ends_serve (does_push hstage₂ ticket.id)
  rintro past₃ time₃ _ ⟨_, rfl, rfl, rfl, hstage₃⟩
  dsimp only
  rw [position_of_length, if_neg Bool.false_ne_true]
  have hloop : (still.setting deadline).Ends cut cut past₃ time₃
      (onPremises do
        Service.record .cooperative (.entered queue.key line.length)
        Action.repeatFrom (line.length : Int) (Cooperative.look queue ticket time₃))
      fun past' finish ended => still.Stage queue.key (line ++ [ticket.id]) renewed past' ∧
        ended = .error .interrupted ∧ finish = deadline ∧ cut := by
    apply ends_then (does_record hstage₃ _ _)
    rintro past₄ time₄ _ ⟨rfl, hstage₄⟩
    exact ends_looks hstage₄ hfresh hwaits
  apply Plan.Setting.ends_serve hloop
  rintro past₄ time₄ _ ⟨hstage₄, rfl, rfl, hcut⟩
  apply Plan.Setting.ends_serve (ends_close hstage₄)
  rintro past₅ time₅ _ ⟨rfl, hstage₅⟩
  exact Plan.Setting.ends_pure ⟨hstage₅, rfl, rfl, hcut⟩

/-!
## Requests
-/

/-- A cooperative wait with a limit runs out of time. -/
theorem surely_followWithin (h : still.Stage ticket.queueKey line renewed past)
    (hfresh : ticket.id ∉ line) (hwaits : ¬ ticket.Settles line.length) (hlimit : 0 < limit) :
    (still.setting (began + limit)).Surely False past began
      ((Cooperative.followWithin ticket (some limit)).serve serveOnPremises)
      fun past' _ waited => still.Stage ticket.queueKey (line ++ [ticket.id]) renewed past' ∧
        waited = ⟨true, .error .limitPassed⟩ := by
  have hnever : (still.setting (began + limit)).Ends False False past began
      ((Cooperative.follow ticket false).serve serveOnPremises) fun _ _ _ => False :=
    (ends_follow h hfresh hwaits).mono fun _ _ _ hended => hended.2.2.2
  apply Plan.Setting.ends_within (not_le.mpr hlimit) hnever
  apply (ends_follow h hfresh hwaits).mono
  rintro past' finish _ ⟨hstage, rfl, rfl, _⟩
  exact ⟨le_rfl, Plan.Setting.ends_pure ⟨hstage, rfl⟩⟩

/-- How a request ends that has timed out: its failure names a key and the limit, and behind it are
the entries but for the head, and an expiry that was renewed once.  It holds nothing. -/
structure TimedOut (still : Standstill) (form : TicketForm ℚ) (limit : ℚ) (line : List String)
    (named : String) (heard : Heard ℚ) (ended : Except (Failure ℚ) Unit) : Prop where
  fails : ∃ ms, ended = .error (.plain (.acquireTimeout named (some limit) ms))
  leaves : still.Stage form.queueKey (line ++ [form.id]).tail [(form.queueKey, form.expiry)] heard

section Acquire

variable {semaphore : Semaphore ℚ}

theorem exists_head (hwaits : ¬ ticket.Settles line.length) :
    ∃ head next rest, line ++ [ticket.id] = head :: next :: rest ∧
      (line ++ [ticket.id]).tail = next :: rest := by
  cases line with
  | nil => exact absurd (Or.inl ticket.one_le_capacity) hwaits
  | cons head rest =>
      cases rest with
      | nil => exact ⟨head, ticket.id, [], rfl, rfl⟩
      | cons next rest => exact ⟨head, next, rest ++ [ticket.id], rfl, rfl⟩

theorem surely_blocking_acquire (h : still.Stage ticket.queueKey line [] past)
    (hticket : (semaphore.ticketForm still.id).issue = .ok ticket) (hfresh : ticket.id ∉ line)
    (hwaits : ¬ ticket.Settles line.length) (hlimit : 0 < limit) :
    (still.setting deadline).Surely False past began
      (onPremises (Blocking.acquire semaphore (some limit))) fun past' _ ended =>
        still.TimedOut ticket.toTicketForm limit line ticket.queueKey past' ended := by
  rcases exists_head hwaits with ⟨head, next, rest, hline, htail⟩
  apply ends_then (does_newTicket h hticket)
  rintro past₁ time₁ ticket ⟨rfl, rfl, hstage₁⟩
  have hwait : (still.setting deadline).Surely False past₁ time₁
      (onPremises (tryCatch (Blocking.wait ticket (some limit)) fun e => do
        if Blocking.isRefusal e then
          Blocking.cleanUp ticket
        throw e)) fun past' _ ended => ∃ e, ended = .error e ∧
          still.TimedOut ticket.toTicketForm limit line ticket.queueKey past' ended := by
    rw [onPremises_tryCatch]
    apply Plan.Setting.ends_bind (ends_blocking_wait hstage₁ hfresh hwaits hlimit)
    rintro past₂ time₂ _ ⟨hstage₂, ms, rfl⟩
    rw [hline] at hstage₂
    apply ends_then (does_blocking_cleanUp hstage₂)
    rintro past₃ time₃ _ ⟨rfl, hstage₃⟩
    refine Plan.Setting.ends_pure ⟨_, rfl, ⟨ms, rfl⟩, ?_⟩
    rw [htail]
    exact hstage₃
  rw [onPremises_bind]
  apply Plan.Setting.ends_bind hwait
  rintro past₂ time₂ _ ⟨e, rfl, htimedOut⟩
  exact Plan.Setting.ends_pure htimedOut

theorem surely_cooperative_acquire (h : still.Stage ticket.queueKey line [] past)
    (hticket : (semaphore.ticketForm still.id).issue = .ok ticket) (hfresh : ticket.id ∉ line)
    (hwaits : ¬ ticket.Settles line.length) (hlimit : 0 < limit) :
    (still.setting (began + limit)).Surely False past began
      (onPremises (Cooperative.acquire semaphore (some limit))) fun past' _ ended =>
        still.TimedOut ticket.toTicketForm limit line semaphore.key past' ended := by
  rcases exists_head hwaits with ⟨head, next, rest, hline, htail⟩
  rw [Cooperative.acquire_eq]
  apply ends_then (does_newTicket h hticket)
  rintro past₁ time₁ ticket ⟨rfl, rfl, hstage₁⟩
  apply ends_then (does_lift (ends_now hstage₁))
  rintro past₂ time₂ _ ⟨rfl, rfl, hstage₂⟩
  apply ends_then (does_lift (surely_followWithin hstage₂ hfresh hwaits hlimit))
  rintro past₃ time₃ _ ⟨hstage₃, rfl⟩
  rw [hline] at hstage₃
  apply ends_then (does_cooperative_cleanUp hstage₃)
  rintro past₄ time₄ _ ⟨rfl, hstage₄⟩
  apply ends_then (does_elapsedSince hstage₄ _)
  rintro past₅ time₅ ms ⟨_, rfl, hstage₅⟩
  refine Plan.Setting.ends_pure ⟨⟨ms, rfl⟩, ?_⟩
  rw [htail]
  exact hstage₅

end Acquire

end Waits

theorem queueKey_ne_key (semaphore : Semaphore ℚ) : semaphore.queueKey ≠ semaphore.key := by
  intro heq
  have hlength := congrArg String.length heq
  unfold Semaphore.queueKey at hlength
  rw [String.length_append, String.length_append] at hlength
  have hopening : "semaphore:".length = 10 := by decide
  omega

/-- A semaphore is used by twins with the same limit, and each of them finds the same queue, at a
position at which it waits.  Nobody else uses the queue meanwhile.  Both of them surely time out,
with the same limit in their failure and with the same behind them.  But the blocking one names the
list that holds the queue, and the cooperative one the semaphore.

The legs of a cooperative clean-up are answered one after the other, and no reply would be another
one if they were answered the other way round. -/
theorem timeouts_name_different_keys (semaphore : Semaphore ℚ) (still : Standstill)
    {line : List String} {limit : ℚ} (began : ℚ)
    (hkeys : still.keys.Lists semaphore.queueKey (line.map String.toUTF8))
    (hid : still.id ≠ "") (hfresh : still.id ∉ line)
    (hwaits : ¬ (semaphore.ticketForm still.id).Settles line.length) (hlimit : 0 < limit) :
    (still.setting (began + limit)).Surely False [] began
        (onPremises (Blocking.acquire semaphore (some limit))) (fun heard _ ended =>
          still.TimedOut (semaphore.ticketForm still.id) limit line semaphore.queueKey heard
            ended) ∧
      (still.setting (began + limit)).Surely False [] began
        (onPremises (Cooperative.acquire semaphore (some limit))) (fun heard _ ended =>
          still.TimedOut (semaphore.ticketForm still.id) limit line semaphore.key heard ended) ∧
      semaphore.queueKey ≠ semaphore.key := by
  rcases semaphore.exists_issue hid with ⟨ticket, hticket⟩
  have hform := TicketForm.toTicketForm_of_issue hticket
  have hfound : still.Stage (semaphore.ticketForm still.id).queueKey line [] [] :=
    ⟨hkeys, rfl, rfl⟩
  have hkey : semaphore.queueKey = ticket.queueKey := (congrArg TicketForm.queueKey hform).symm
  have hname : ticket.id = still.id := congrArg TicketForm.id hform
  rw [← hname] at hfresh
  rw [← hform] at hfound hwaits ⊢
  refine ⟨?_, ?_, queueKey_ne_key semaphore⟩
  · rw [hkey]
    exact surely_blocking_acquire hfound hticket hfresh hwaits hlimit
  · exact surely_cooperative_acquire hfound hticket hfresh hwaits hlimit

def stall : Semaphore ℚ where
  key := "stall"
  sleepDuration := 1 / 10
  sound := by decide +kernel

def occupied : Standstill where
  keys := { lists := [("semaphore:stall:queue", ["holder".toUTF8])] }
  decodes := false
  moment := 0
  id := "a"
  root := fun _ => 1

theorem timeouts_name_different_keys_at_stall :
    (∃ heard finish ms, (onPremises (Blocking.acquire stall (some (1 / 4)))).Lasts
      (exactPace (1 / 4)) False 0 heard finish
      (.error (.plain (.acquireTimeout "semaphore:stall:queue" (some (1 / 4)) ms)))) ∧
    ∃ heard finish ms, (onPremises (Cooperative.acquire stall (some (1 / 4)))).Lasts
      (exactPace (1 / 4)) False 0 heard finish
      (.error (.plain (.acquireTimeout "stall" (some (1 / 4)) ms))) := by
  have hkeys : occupied.keys.Lists stall.queueKey (["holder"].map String.toUTF8) :=
    ⟨List.not_mem_nil, rfl⟩
  have hwaits : ¬ (stall.ticketForm occupied.id).Settles ["holder"].length := by decide
  rcases timeouts_name_different_keys stall occupied 0 hkeys (by decide) (by decide) hwaits
    (show (0 : ℚ) < 1 / 4 by norm_num) with ⟨hblocking, hcooperative, _⟩
  rw [zero_add] at hblocking hcooperative
  rcases hblocking.can trivial with ⟨heard, finish, _, hlasts, hallows⟩
  rcases hcooperative.can trivial with ⟨heard', finish', _, hlasts', hallows'⟩
  rcases (hblocking.only _ _ _ hlasts hallows).fails with ⟨ms, rfl⟩
  rcases (hcooperative.only _ _ _ hlasts' hallows').fails with ⟨ms', rfl⟩
  exact ⟨⟨heard, finish, ms, hlasts⟩, heard', finish', ms', hlasts'⟩

end Standstill
end Turnstile
