import Turnstile.Proofs.Crowd.FreeSlots
import Turnstile.Proofs.Vigil.Basic
import Turnstile.Proofs.Vigil.Outlook

/-!
# The positions of a waiter

While a waiter looks for its place, anybody may use its queue, and the queue may be deleted or go
when its deadline comes.  Nobody is put in front of a waiter, so its positions never increase, and
it is rejected on entry or not at all.

A waiter that is no longer in the queue is taken to stand at position one.  Whoever still waits
stands at one or further back, so that this is no exception.

## Main statements

* `Vigil.rejected_on_entry` - positions do not increase, and nobody is rejected after it has waited.
-/

namespace Turnstile

open Redis

variable {τ : Type}

/-!
## The place of an item
-/

namespace Redis

/-- An item is in a list once and has at most `position` items before it, or it is not there. -/
def Within (item : ByteArray) (position : Int) (line : List ByteArray) : Prop :=
  item ∉ line ∨ ∃ before after, line = before ++ item :: after ∧ item ∉ before ∧ item ∉ after ∧
    (before.length : Int) ≤ position

namespace Within

variable {item other : ByteArray} {position : Int} {line : List ByteArray}

theorem enter (h : item ∉ line) : Within item line.length (line ++ [item]) :=
  Or.inr ⟨line, [], rfl, h, List.not_mem_nil, Int.le_refl _⟩

theorem concat (h : Within item position line) (hother : other ≠ item) :
    Within item position (line ++ [other]) := by
  rcases h with hgone | ⟨before, after, rfl, hbefore, hafter, hle⟩
  · left
    simp [hgone, hother.symm]
  · right
    exists before, after ++ [other]
    simp [hbefore, hafter, hother.symm, hle]

theorem drop (h : Within item position line) (count : Nat) :
    Within item position (line.drop count) := by
  rcases h with hgone | ⟨before, after, rfl, hbefore, hafter, hle⟩
  · left
    intro hmem
    exact hgone (List.mem_of_mem_drop hmem)
  · rcases Nat.lt_or_ge before.length count with hpast | hahead
    · left
      -- The item itself is among those that are removed.
      rw [← List.idxOf?_eq_none_iff,
        Register.idxOf?_drop_append_cons hbefore hafter, if_pos hpast]
    · right
      exists before.drop count, after
      constructor
      · exact List.drop_append_of_le_length hahead
      · constructor
        · intro hmem
          exact hbefore (List.mem_of_mem_drop hmem)
        · constructor
          · exact hafter
          · rw [List.length_drop]
            omega

theorem disturbed {line' : List ByteArray} (h : Within item position line)
    (hdisturbs : Keyspace.Disturbs item line line') : Within item position line' := by
  cases hdisturbs with
  | appended other apart => exact h.concat apart
  | removed count => exact h.drop count

theorem rank_le (h : Within item position line) {rank : Nat}
    (hrank : line.idxOf? item = some rank) : (rank : Int) ≤ position ∧ Within item rank line := by
  rcases h with hgone | ⟨before, after, rfl, hbefore, hafter, hle⟩
  · rw [List.idxOf?_eq_none_iff.mpr hgone] at hrank
    cases hrank
  · rw [Register.idxOf?_append_cons hbefore] at hrank
    cases hrank
    exact ⟨hle, Or.inr ⟨before, after, rfl, hbefore, hafter, Int.le_refl _⟩⟩

end Within
end Redis

variable [Seconds τ]

/-!
## What was heard
-/

namespace Outlook

open Vigil

variable {φ : Outlook} {heard : List (Plan.Exchange (Premises τ))} {r : (Premises τ).Request}
  {answer : (Premises τ).Answer r} {key id : String} {noise : Prop}

/-- What a waiter was told so far, if it has this outlook now. -/
def Recalls (heard : List (Plan.Exchange (Premises τ))) : Outlook → Prop
  | .outside | .untold =>
      heard.filterMap position? = [] ∧ ∀ exchange ∈ heard, ¬ Waits exchange.1
  | .told position waited =>
      (∃ earlier, heard.filterMap position? = earlier ++ [position]) ∧
        (heard.filterMap position?).Pairwise (fun earlier later => later ≤ earlier) ∧
        (waited = false → heard.filterMap position? = [position] ∧
          ∀ exchange ∈ heard, ¬ Waits exchange.1)

namespace Recalls

theorem filterMap_concat (exchange : Plan.Exchange (Premises τ)) :
    (heard ++ [exchange]).filterMap position? =
      heard.filterMap position? ++ (position? exchange).toList := by
  rw [List.filterMap_append]
  cases hposition : position? exchange with
  | none => simp [hposition]
  | some position => simp [hposition]

theorem quiet_concat (hheard : ∀ exchange ∈ heard, ¬ Waits exchange.1) (hr : ¬ Waits r)
    (answer : (Premises τ).Answer r) :
    ∀ exchange ∈ heard ++ [(⟨r, answer⟩ : Plan.Exchange (Premises τ))], ¬ Waits exchange.1 := by
  intro exchange hexchange
  rcases List.mem_append.mp hexchange with hmem | hmem
  · exact hheard exchange hmem
  · rw [List.mem_singleton.mp hmem]
    exact hr

theorem same (h : φ.Recalls heard) (hposition : position? ⟨r, answer⟩ = none) (hr : ¬ Waits r) :
    φ.Recalls (heard ++ [⟨r, answer⟩]) := by
  have hpositions : (heard ++ [(⟨r, answer⟩ : Plan.Exchange (Premises τ))]).filterMap position? = heard.filterMap position? := by
    rw [filterMap_concat, hposition, Option.toList_none, List.append_nil]
  cases φ with
  | outside =>
      unfold Recalls
      rw [hpositions]
      exact ⟨h.1, quiet_concat h.2 hr answer⟩
  | untold =>
      unfold Recalls
      rw [hpositions]
      exact ⟨h.1, quiet_concat h.2 hr answer⟩
  | told position waited =>
      unfold Recalls
      rw [hpositions]
      rcases h with ⟨hlast, hsorted, hfirst⟩
      constructor
      · exact hlast
      · constructor
        · exact hsorted
        · intro hwaited
          exact ⟨(hfirst hwaited).1, quiet_concat (hfirst hwaited).2 hr answer⟩

theorem wait {position : Int} {waited : Bool} (h : (Outlook.told position waited).Recalls heard)
    (hposition : position? ⟨r, answer⟩ = none) :
    (Outlook.told position true).Recalls (heard ++ [⟨r, answer⟩]) := by
  unfold Recalls
  rw [filterMap_concat, hposition, Option.toList_none, List.append_nil]
  constructor
  · exact h.1
  · constructor
    · exact h.2.1
    · intro hwaited
      cases hwaited

theorem enter {length : Nat} (h : Outlook.outside.Recalls heard)
    (hposition : position? ⟨r, answer⟩ = some (length - 1 : Int)) (hr : ¬ Waits r) :
    (Outlook.told (length - 1) false).Recalls (heard ++ [⟨r, answer⟩]) := by
  unfold Recalls
  rw [filterMap_concat, hposition, h.1]
  constructor
  · exact ⟨[], rfl⟩
  · constructor
    · exact List.pairwise_singleton _ _
    · intro _
      exact ⟨rfl, quiet_concat h.2 hr answer⟩

theorem move {position position' : Int} {waited : Bool}
    (h : (Outlook.told position waited).Recalls heard)
    (hposition : position? ⟨r, answer⟩ = some position') (hle : position' ≤ position) :
    (Outlook.told position' true).Recalls (heard ++ [⟨r, answer⟩]) := by
  rcases h with ⟨⟨earlier, hlast⟩, hsorted, _⟩
  unfold Recalls
  rw [filterMap_concat, hposition]
  constructor
  · exact ⟨_, rfl⟩
  · constructor
    · rw [Option.toList_some, List.pairwise_append]
      constructor
      · exact hsorted
      · constructor
        · exact List.pairwise_singleton _ _
        · intro first hfirst last hlastMem
          rw [List.mem_singleton.mp hlastMem]
          rw [hlast] at hfirst hsorted
          rcases List.mem_append.mp hfirst with hearlier | hsame
          · exact Int.le_trans hle
              ((List.pairwise_append.mp hsorted).2.2 first hearlier position List.mem_cons_self)
          · rw [List.mem_singleton.mp hsame]
            exact hle
    · intro hwaited
      cases hwaited

theorem after (h : φ.Recalls heard) (hallows : φ.allows key id r)
    (hexpects : φ.expects noise r answer) :
    (φ.after r answer).Recalls (heard ++ [⟨r, answer⟩]) := by
  rcases r with (_ | ⟨client, command⟩ | _) | r
  · exact h.same rfl not_false
  · cases command with
    | ping => exact h.same rfl not_false
    | rpush key' id' =>
        rcases hallows with ⟨_, _, rfl⟩
        cases answer with
        | ok length => exact h.enter rfl not_false
        | error e =>
            have hsame : Outlook.outside.Recalls
                (heard ++ [⟨.inl (.call client (.rpush key' id')), .error e⟩]) :=
              h.same rfl not_false
            exact hsame
    | lpos key' id' =>
        rcases hallows with ⟨_, _, position, waited, rfl, hone⟩
        cases answer with
        | ok rank => exact h.move rfl (hexpects.2 rank rfl position waited rfl hone)
        | error e => exact h.wait rfl
    | _ => exact hallows.elim
  · exact h.same rfl not_false
  · cases r with
    | estimate position capacity base =>
        rcases hallows with ⟨position, waited, rfl⟩
        exact h.wait rfl
    | sleep duration =>
        rcases hallows with ⟨position, waited, rfl⟩
        exact h.wait rfl
    | now => exact h.same rfl not_false
    | record mode entry => exact h.same rfl not_false
    | announce position => exact h.same rfl not_false
    | _ => exact hallows.elim

theorem descends (h : φ.Recalls heard) :
    (heard.filterMap position?).Pairwise (fun earlier later => later ≤ earlier) := by
  cases φ with
  | outside =>
      rw [h.1]
      exact .nil
  | untold =>
      rw [h.1]
      exact .nil
  | told position waited => exact h.2.1

end Recalls

/-!
## What is found
-/

/-- What the list under a key can be for a waiter with this outlook. -/
def Finds (item : ByteArray) (line : List ByteArray) : Outlook → Prop
  | .outside => item ∉ line
  | .told position _ => Within item position line
  | .untold => True

theorem Finds.disturbed {item : ByteArray} {line line' : List ByteArray}
    (h : φ.Finds item line) (hdisturbs : Keyspace.Disturbs item line line') :
    φ.Finds item line' := by
  cases φ with
  | outside =>
      cases hdisturbs with
      | appended other apart =>
          intro hmem
          rcases List.mem_append.mp hmem with hold | hnew
          · exact h hold
          · exact apart (List.mem_singleton.mp hnew).symm
      | removed count =>
          intro hmem
          exact h (List.mem_of_mem_drop hmem)
  | told position waited => exact Within.disturbed h hdisturbs
  | untold => trivial

end Outlook

namespace Redis.Keyspace

variable {keys keys' : Keyspace τ} {faults : Failure τ → Prop} {took : Bool} {key id : String}

theorem Executed.rpush_ok {reply : Except (Failure τ) (Command.rpush key id).Reply} {length : Nat}
    (h : Executed faults keys (.rpush key id) took reply keys') (hreply : reply = .ok length) :
    length = (keys.items key).length + 1 ∧ keys'.items key = keys.items key ++ [id.toUTF8] := by
  cases h with
  | refused fault => cases hreply
  | lost fault decodes time => cases hreply
  | answered decodes time =>
      replace hreply : (keys.rpush key id).1.reply = .ok length := hreply
      show _ ∧ (keys.rpush key id).2.items key = _
      unfold rpush at hreply ⊢
      split at hreply
      · cases hreply
      · rename_i items? hitems
        cases hreply
        dsimp only
        rw [items_of_list? hitems, List.length_append, items_setItems]
        exact ⟨rfl, rfl⟩

theorem Executed.lpos_ok {reply : Except (Failure τ) (Command.lpos key id).Reply}
    {rank : Option Nat} (h : Executed faults keys (.lpos key id) took reply keys') (hreply : reply = .ok rank) :
    rank = (keys.items key).idxOf? id.toUTF8 := by
  cases h with
  | refused fault => cases hreply
  | lost fault decodes time => cases hreply
  | answered decodes time =>
      replace hreply : (keys.lpos key id).reply = .ok rank := hreply
      unfold lpos at hreply
      split at hreply
      · cases hreply
      · rename_i items? hitems
        cases hreply
        rw [items_of_list? hitems]

theorem Executed.lpos_keys {reply : Except (Failure τ) (Command.lpos key id).Reply}
    (h : Executed faults keys (.lpos key id) took reply keys') : keys' = keys := by
  cases h with
  | answered decodes time => rfl
  | refused fault => rfl
  | lost fault decodes time => rfl

theorem Executed.exceeds {command : Command} {reply : Except (Failure τ) command.Reply}
    {e : Failure τ} (h : Executed faults keys command took reply keys') (hreply : reply = .error e)
    (hexceeds : e.exceeds = true) : ∃ e', faults e' ∧ e'.exceeds = true := by
  rcases h.of_error hreply with hordinary | hfault
  · have hrefusal := hordinary.noRefusal
    cases e with
    | semaphore error cause =>
        cases error with
        | positionExceeded position maxPosition => cases hrefusal
        | _ => cases hexceeds
    | _ => cases hexceeds
  · exact ⟨e, hfault, hexceeds⟩

end Redis.Keyspace

namespace Vigil

open Outlook

variable {faults : Failure τ → Prop} {ticket : Ticket τ} {keys keys' : Keyspace τ} {φ : Outlook}
  {r : (Premises τ).Request} {answer : (Premises τ).Answer r} {key id : String}
  {vigil vigil' : Vigil τ}

/-- Something else than the wait itself can say that a position was too far back. -/
def Noise (faults : Failure τ → Prop) : Prop :=
  ∃ e, faults e ∧ e.exceeds = true

theorem Answers.expects (h : Answers faults keys r answer keys') (hallows : φ.allows key id r)
    (hfinds : φ.Finds id.toUTF8 (keys.items key)) : φ.expects (Noise faults) r answer := by
  cases h with
  | @call client command took reply keys' executed =>
      constructor
      · intro e he hexceeds
        exact executed.exceeds he hexceeds
      · cases command with
        | lpos key' id' =>
            rcases hallows with ⟨rfl, rfl, _⟩
            intro rank hrank position waited hφ hone
            subst hφ
            have hrank' := executed.lpos_ok hrank
            cases rank with
            | none => exact hone
            | some rank => exact (Within.rank_le hfinds hrank'.symm).1
        | _ => trivial
  | estimate position capacity base allowed => exact fun e he hexceeds => ⟨e, allowed e he, hexceeds⟩
  | sleep duration allowed => exact fun e he hexceeds => ⟨e, allowed e he, hexceeds⟩
  | announce position allowed => exact fun e he hexceeds => ⟨e, allowed e he, hexceeds⟩
  | _ => trivial

/-- The waiter finds its entry where its last answer told that it is, or not at all. -/
theorem Answers.finds (h : Answers faults keys r answer keys') (hallows : φ.allows key id r)
    (hfinds : φ.Finds id.toUTF8 (keys.items key)) :
    (φ.after r answer).Finds id.toUTF8 (keys'.items key) := by
  have hwait : φ.wait.Finds id.toUTF8 (keys.items key) := by
    cases φ with
    | _ => exact hfinds
  cases h with
  | @call client command took reply keys' executed =>
      cases command with
      | ping => 
          cases executed with
          | _ => exact hfinds
      | rpush key' id' =>
          rcases hallows with ⟨rfl, rfl, rfl⟩
          cases reply with
          | error e => trivial
          | ok length =>
              rcases executed.rpush_ok rfl with ⟨rfl, hitems⟩
              rw [hitems]
              have henter := Within.enter hfinds
              show Within _ (((keys.items key').length + 1 : Nat) - 1 : Int) _
              rw [Int.natCast_succ, Int.add_sub_cancel]
              exact henter
      | lpos key' id' =>
          rcases hallows with ⟨rfl, rfl, position, waited, rfl, hone⟩
          rw [executed.lpos_keys]
          cases reply with
          | error e => exact hwait
          | ok rank =>
              have hrank := executed.lpos_ok rfl
              cases rank with
              | none => exact Or.inl (List.idxOf?_eq_none_iff.mp hrank.symm)
              | some rank => exact (Within.rank_le hfinds hrank.symm).2
      | _ => exact hallows.elim
  | estimate position capacity base allowed => exact hwait
  | sleep duration allowed => exact hwait
  | _ => exact hfinds

/-- What holds of a waiter whatever it was answered, and whatever others did meanwhile. -/
structure Watched (faults : Failure τ → Prop) (ticket : Ticket τ) (φ : Outlook)
    (vigil : Vigil τ) : Prop where
  meets : vigil.plan.Meets (Outlook.terms ticket.queueKey ticket.id (Noise faults)) φ
    (Action.Ends (fun _ _ => True) (Rejects (Noise faults)))
  recalls : φ.Recalls vigil.heard
  finds : φ.Finds ticket.id.toUTF8 (vigil.keys.items ticket.queueKey)

theorem Watched.opening (wait : Wait τ) (habsent : ticket.id.toUTF8 ∉ keys.items ticket.queueKey) :
    (opening ticket wait keys).Watched faults ticket .outside := by
  constructor
  · cases wait with
    | blocking limit =>
        show (onPremises (Blocking.wait ticket limit)).Meets _ _ _
        exact Blocking.wait_descends
    | cooperative watched =>
        show (onPremises (Cooperative.wait ticket watched)).Meets _ _ _
        exact Cooperative.wait_descends
  · constructor
    · rfl
    · intro exchange hexchange
      cases hexchange
  · exact habsent

theorem Watched.step (h : vigil.Watched faults ticket φ)
    (hstep : Step faults ticket vigil vigil') : ∃ φ', vigil'.Watched faults ticket φ' := by
  cases hstep with
  | turn turns => exact ⟨φ, h.meets.turns turns, h.recalls, h.finds⟩
  | others disturbed => exact ⟨φ, h.meets, h.recalls, h.finds.disturbed disturbed.items⟩
  | @hears r answer keys plan asks answers =>
      rcases h.meets.asks asks with ⟨hallows, hnext⟩
      have hexpects := answers.expects hallows h.finds
      exists φ.after r answer
      constructor
      · exact hnext answer hexpects rfl
      · exact h.recalls.after hallows hexpects
      · exact answers.finds hallows h.finds

theorem Watched.leads (h : vigil.Watched faults ticket φ)
    (hleads : Leads faults ticket vigil vigil') : ∃ φ', vigil'.Watched faults ticket φ' := by
  induction hleads with
  | refl => exact ⟨φ, h⟩
  | tail _ hstep ih =>
      rcases ih with ⟨φ₁, hwatched⟩
      exact hwatched.step hstep

def isRejected (vigil : Vigil τ) : Bool :=
  match vigil.plan with
  | .pure (.error e) => e.exceeds
  | _ => false

theorem plan_eq_of_isRejected (h : vigil.isRejected = true) : ∃ position maxPosition cause,
    vigil.plan = .pure (.error (.semaphore (.positionExceeded position maxPosition) cause)) := by
  unfold isRejected at h
  split at h
  · rename_i e hplan
    rcases Failure.eq_of_exceeds h with ⟨position, maxPosition, cause, rfl⟩
    exact ⟨position, maxPosition, cause, hplan⟩
  · cases h

/-- The positions of a waiter never increase.  If it is rejected, and nothing else can have told it
so, then it was told one position only, and has neither looked again nor slept. -/
theorem rejected_on_entry {wait : Wait τ}
    (habsent : ticket.id.toUTF8 ∉ keys.items ticket.queueKey)
    (hleads : Leads faults ticket (opening ticket wait keys) vigil) :
    vigil.positions.Pairwise (fun earlier later => later ≤ earlier) ∧
      ∀ position maxPosition cause,
        vigil.plan = .pure (.error (.semaphore (.positionExceeded position maxPosition) cause)) →
          (∀ e, faults e → e.exceeds = false) →
            vigil.positions = [position] ∧ ∀ exchange ∈ vigil.heard, ¬ Waits exchange.1 := by
  rcases (Watched.opening wait habsent).leads hleads with ⟨φ, hwatched⟩
  constructor
  · exact hwatched.recalls.descends
  · intro position maxPosition cause hended hsilent
    have hmeets := hwatched.meets
    rw [hended] at hmeets
    have hrejects : Noise faults ∨ φ = .told position false := hmeets position maxPosition cause rfl
    rcases hrejects with ⟨e, hfault, hexceeds⟩ | hfresh
    · rw [hsilent e hfault] at hexceeds
      cases hexceeds
    · have hrecalls := hwatched.recalls
      rw [hfresh] at hrecalls
      exact hrecalls.2.2 rfl

/-- A waiter looks, and looks again after a head was removed and after the queue was deleted and
filled by others.  A hasty one is rejected at once. -/
theorem rejected_on_entry_of_busyGate :
    (∃ vigil, Leads (fun _ => False) lateTicket (opening lateTicket (.blocking none) busyGate) vigil ∧
      vigil.positions = [2, 2, 1, 1] ∧
      vigil.positions.Pairwise (fun earlier later => later ≤ earlier)) ∧
    ∃ vigil, Leads (fun _ => False) hastyTicket
        (opening hastyTicket (.cooperative true) busyGate) vigil ∧
      ∃ position maxPosition cause,
        vigil.plan = .pure (.error (.semaphore (.positionExceeded position maxPosition) cause)) ∧
        vigil.positions = [position] ∧ ∀ exchange ∈ vigil.heard, ¬ Waits exchange.1 := by
  constructor
  · have hdrive : ((drive lateTicket (opening lateTicket (.blocking none) busyGate)
        (goOn 9 ++ .sent (.lpop lateTicket.queueKey 1) :: goOn 5 ++ .passed 30 ::
          .sent (.rpush lateTicket.queueKey "4") :: .sent (.rpush lateTicket.queueKey "5") ::
            goOn 5)).map positions) = some [2, 2, 1, 1] := by
      decide +kernel
    rcases Option.map_eq_some_iff.mp hdrive with ⟨vigil, hvigil, hpositions⟩
    have hleads : Leads (fun _ => False) lateTicket _ vigil := drive_leads hvigil
    exact ⟨vigil, hleads, hpositions, (rejected_on_entry (by decide +kernel) hleads).1⟩
  · have hdrive : ((drive hastyTicket (opening hastyTicket (.cooperative true) busyGate)
        (goOn 9)).map isRejected) = some true := by
      decide +kernel
    rcases Option.map_eq_some_iff.mp hdrive with ⟨vigil, hvigil, hrejected⟩
    have hleads : Leads (fun _ => False) hastyTicket _ vigil := drive_leads hvigil
    rcases plan_eq_of_isRejected hrejected with ⟨position, maxPosition, cause, hplan⟩
    have hsilent : ∀ e : Failure Float, False → e.exceeds = false := fun _ h => h.elim
    exact ⟨vigil, hleads, position, maxPosition, cause, hplan,
      (rejected_on_entry (by decide +kernel) hleads).2 position maxPosition cause hplan hsilent⟩

end Vigil
end Turnstile
