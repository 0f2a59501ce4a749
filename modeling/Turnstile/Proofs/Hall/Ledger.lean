import Mathlib.Algebra.Order.BigOperators.Group.List
import Mathlib.Algebra.Order.Group.Nat
import Turnstile.Proofs.Hall.Schedule

/-!
# The ledger of a queue

When blocking instances share a queue and nothing goes wrong, every item of the list is accounted
for: it was there at first, or is the entry of a slot that is held, or of a request for a slot that
goes on, or of a slot that is being given back.  Which item is which is not known, since every
removal takes the head.  Requests for a slot may be rejected or run out of time.

## Main statements

* `Hall.queue_ledger` - the length of the list, in every state of every run.
-/

namespace Turnstile

open Redis

universe u

variable {τ : Type} [Seconds τ]

/-!
## A use that has the server to itself
-/

/-- Follows a plan whose requests are answered one by one by somebody who keeps a state.  There is
no result if a request is not answered, or if the plan does anything but ask. -/
def Plan.attended {I : Interface.{u}} {σ : Type}
    (attend : σ → (r : I.Request) → Option (I.Answer r × σ)) :
    {α : Type} → Plan I τ α → σ → Option (α × σ)
  | _, .pure a, state => some (a, state)
  | _, .ask r next, state =>
      match attend state r with
      | none => none
      | some (answer, state') => (next answer).attended attend state'
  | _, _, _ => none

omit [Seconds τ] in
theorem Plan.attended_ask {I : Interface.{u}} {σ α : Type}
    {attend : σ → (r : I.Request) → Option (I.Answer r × σ)} {r : I.Request} {answer : I.Answer r}
    {state state' : σ} (h : attend state r = some (answer, state'))
    (next : I.Answer r → Plan I τ α) :
    (Plan.ask r next).attended attend state = (next answer).attended attend state' := by
  rw [Plan.attended, h]

/-- The answers of a server that has one user only, who uses one client. -/
def Redis.Keyspace.attend (client : Client) (decodes : Bool) (time : τ) (keys : Keyspace τ) :
    (r : (Premises τ).Request) → Option ((Premises τ).Answer r × Keyspace τ)
  | .inl (.dial _) => some (client, keys)
  | .inl (.call _ command) =>
      some ((keys.run decodes time command).1.reply, (keys.run decodes time command).2)
  | .inl (.hangUp _) => some ((), keys)
  | .inr _ => none

theorem Semaphore.queueLength_attended {semaphore : Semaphore τ} {keys : Keyspace τ}
    {line : List ByteArray} (hlists : keys.Lists semaphore.queueKey line) (client : Client)
    (decodes : Bool) (time : τ) :
    (onPremises semaphore.queueLength).attended (Keyspace.attend client decodes time) keys =
      some (.ok line.length, keys) := by
  have hlength : Keyspace.attend client decodes time keys
      (.inl (.call client (.llen semaphore.queueKey))) = some (.ok line.length, keys) :=
    congrArg (fun reply => some (reply, keys)) hlists.llen_reply
  -- The client is made and answers before the length is asked for.
  have hasks : ∃ next : Except (Failure τ) Nat → Plan (Premises τ) τ (Except (Failure τ) Nat),
      (onPremises semaphore.queueLength).attended (Keyspace.attend client decodes time) keys =
        (Plan.ask (I := Premises τ) (.inl (.call client (.llen semaphore.queueKey))) next).attended
          (Keyspace.attend client decodes time) keys ∧
      (next (.ok line.length)).attended (Keyspace.attend client decodes time) keys =
        some (.ok line.length, keys) :=
    ⟨_, rfl, rfl⟩
  rcases hasks with ⟨next, hasked, hnext⟩
  have hask := Plan.attended_ask (I := Premises τ) hlength next
  exact hasked.trans (hask.trans hnext)

def Errand.Ended (errand : Errand τ) : Prop :=
  ∃ ended, errand.plan = .pure ended

namespace Hall

variable {regime : Regime τ} {hall hall' : Hall τ} {number : Nat} {r : (Premises τ).Request}
  {answer : (Premises τ).Answer r} {sent : List (Dispatch τ)} {key : String}

def count (hall : Hall τ) (credit : Credit) : Nat :=
  hall.errands.countP fun errand => errand.credit = credit

def credit (hall : Hall τ) : Nat :=
  (hall.errands.map fun errand => errand.credit.worth).sum

theorem credit_eq (hall : Hall τ) : hall.credit = hall.count .entry + hall.count .slot := by
  unfold credit count
  induction hall.errands with
  | nil => rfl
  | cons errand rest ih =>
      rw [List.map_cons, List.sum_cons, List.countP_cons, List.countP_cons, ih]
      cases errand.credit with
      | entry => simp [Credit.worth]; omega
      | slot => simp [Credit.worth]; omega
      | blank => simp [Credit.worth]
      | spent => simp [Credit.worth]

theorem worth_le_credit {errand : Errand τ} (h : errand ∈ hall.errands) :
    errand.credit.worth ≤ hall.credit :=
  List.le_sum_of_mem (List.mem_map_of_mem h)

/-!
## Entries and removals
-/

/-- Where nothing goes wrong an answer leaves the list as long as the slots and the credit say. -/
theorem Answers.accounts {φ : Credit} {line : List ByteArray}
    (h : Answers regime hall number r answer sent hall') (hfair : regime.Fair)
    (hallows : φ.allows key r) (hlists : hall.keys.Lists key line)
    (hcovered : φ.worth ≤ line.length) :
    ∃ line', hall'.keys.Lists key line' ∧
      line'.length + hall.held + φ.worth =
        line.length + hall'.held + (φ.after r answer).worth := by
  cases h with
  | @call client command took reply keys executed =>
      have hqueue := Credit.ofQueue_of_allows hallows
      have hsame : command.effect line = line → (φ.after (.inl (.call client command)) reply) = φ →
          ∃ line', keys.Lists key line' ∧ line'.length + hall.held + φ.worth =
            line.length + hall.held + (φ.after (.inl (.call client command)) reply).worth := by
        intro heffect hφ
        rw [hφ]
        exact ⟨line, executed.lists_same hlists hqueue heffect, rfl⟩
      cases command with
      | rpush key' id =>
          rcases hallows with ⟨rfl, rfl⟩
          cases executed with
          | answered decodes time =>
              have hreply : (hall.keys.run decodes time (.rpush key' id)).1.reply =
                  .ok (line.length + 1) := hlists.rpush_reply id
              rw [hreply]
              refine ⟨_, hlists.run hqueue decodes time, ?_⟩
              show (line ++ [id.toUTF8]).length + hall.held + 0 = line.length + hall.held + 1
              rw [List.length_append, List.length_singleton]
              omega
          | refused fault => exact absurd fault (hfair.faultless _ _)
          | lost fault decodes time => exact absurd fault (hfair.faultless _ _)
      | lpop key' count =>
          rcases hallows with ⟨rfl, rfl, hφ⟩
          have hworth : φ.worth = 1 := by
            rcases hφ with rfl | rfl
            · rfl
            · rfl
          cases executed with
          | answered decodes time =>
              refine ⟨_, hlists.run hqueue decodes time, ?_⟩
              show line.tail.length + hall.held + φ.worth = line.length + hall.held + 0
              rw [List.length_tail]
              omega
          | refused fault => exact absurd fault (hfair.faultless _ _)
          | lost fault decodes time => exact absurd fault (hfair.faultless _ _)
      | _ => exact hsame rfl rfl
  | @hold ticket before after user split place =>
      rw [show φ = .entry from hallows.2]
      refine ⟨line, hlists, ?_⟩
      unfold held
      rw [split]
      simp only [List.map_append, List.map_cons, List.sum_append, List.sum_cons,
        List.length_append, List.length_singleton, Credit.after, Credit.worth]
      omega
  | @takeOldest before after user ticket rest split place oldest =>
      have hworth : φ.worth = 0 := by
        rcases hallows with rfl | rfl
        · rfl
        · rfl
      refine ⟨line, hlists, ?_⟩
      rw [hworth]
      unfold held
      rw [split]
      simp only [List.map_append, List.map_cons, List.sum_append, List.sum_cons, oldest,
        List.length_cons, Credit.after, Credit.worth]
      omega
  | _ => exact ⟨line, hlists, rfl⟩

/-- Blocking instances have a queue to themselves that nothing goes wrong with, and its list is as
long as the slots and the credit say. -/
structure Accounted (regime : Regime τ) (key : String) (initial : Nat) (hall : Hall τ) :
    Prop where
  conducted : hall.Conducted regime
  gathered : hall.Gathered key
  lists : ∃ line, hall.keys.Lists key line ∧ line.length = initial + hall.held + hall.credit

theorem Accounted.step {initial : Nat} (h : hall.Accounted regime key initial)
    (hfair : regime.Fair) (hkeeps : regime.Keeps key) (hstep : Step regime hall hall') :
    hall'.Accounted regime key initial := by
  rcases h.lists with ⟨line, hlists, hlength⟩
  have hclear : hall.Clear regime := h.gathered.clear hlists
  refine ⟨h.conducted.step hclear hstep, h.gathered.step hstep, ?_⟩
  cases hstep with
  | call use here =>
      refine ⟨line, hlists, ?_⟩
      rw [hlength]
      simp [credit, held, Credit.worth]
  | turn split turns =>
      refine ⟨line, hlists, ?_⟩
      rw [hlength]
      unfold credit held
      rw [split]
      simp
  | @hears before after errand r answer sent plan hall'' split asks answers =>
      have herrand := mem_of_split split
      rcases h.conducted.asks hclear herrand asks answers with ⟨key', hkey, hallows, _⟩
      rw [h.gathered.queueKey?_eq hkey] at hallows
      have hcovered := worth_le_credit herrand
      rcases answers.accounts hfair hallows hlists (by omega) with ⟨line', hlists', hlength'⟩
      refine ⟨line', hlists', ?_⟩
      unfold credit at hlength ⊢
      rw [split] at hlength
      simp only [List.map_append, List.map_cons, List.sum_append, List.sum_cons] at hlength ⊢
      show _ = initial + hall''.held +
        (_ + ((errand.credit.after r answer).worth + _))
      omega
  | elsewhere keys allowed =>
      exact ⟨line, hkeeps _ _ allowed line hlists, hlength⟩

theorem Accounted.leads {initial : Nat} (h : hall.Accounted regime key initial)
    (hfair : regime.Fair) (hkeeps : regime.Keeps key) (hleads : Leads regime hall hall') :
    hall'.Accounted regime key initial := by
  induction hleads with
  | refl => exact h
  | tail _ hstep ih => exact ih.step hfair hkeeps hstep

theorem Opening.accounted {line : List ByteArray} (h : hall.Opening)
    (hblocking : ∀ user ∈ hall.users, user.mode = .blocking) (hgathered : hall.Gathered key)
    (hlists : hall.keys.Lists key line) : hall.Accounted regime key line.length := by
  refine ⟨h.conducted fun _ => hblocking, hgathered, line, hlists, ?_⟩
  have hheld : hall.held = 0 := by
    unfold held
    apply List.sum_eq_zero
    intro slots hslots
    rcases List.mem_map.mp hslots with ⟨user, huser, rfl⟩
    rw [h.noSlots user huser, List.length_nil]
  unfold credit
  rw [hheld, h.noErrands]
  rfl

theorem Conducted.credit_eq_zero (h : hall.Conducted regime) (hfair : regime.Fair)
    (hended : ∀ errand ∈ hall.errands, errand.Ended) : hall.credit = 0 := by
  unfold credit
  apply List.sum_eq_zero
  intro worth hworth
  rcases List.mem_map.mp hworth with ⟨errand, herrand, rfl⟩
  rcases hended errand herrand with ⟨ended, hplan⟩
  rcases h.meets errand herrand with ⟨key, _, hmeets⟩
  rw [hplan] at hmeets
  rcases hmeets with hnone | hunfair
  · exact hnone
  · exact absurd hfair hunfair

/-- The list is as long as it was at first, and one item longer for every slot that is held, for
every request for a slot that has its entry and goes on, and for every release that has not removed
a head.  So no head is removed from an empty list, and when no use goes on the length of the queue
tells how many slots are held. -/
theorem queue_ledger {initial : List ByteArray} (hfair : regime.Fair) (hkeeps : regime.Keeps key)
    (hopening : hall.Opening) (hblocking : ∀ user ∈ hall.users, user.mode = .blocking)
    (hgathered : hall.Gathered key) (hlists : hall.keys.Lists key initial)
    (hleads : Leads regime hall hall') :
    ∃ line, hall'.keys.Lists key line ∧
      line.length = initial.length + hall'.held + hall'.count .entry + hall'.count .slot ∧
      (∀ errand ∈ hall'.errands, 0 < errand.plan.awaiting Turnstile.removes → line ≠ []) ∧
      ((∀ errand ∈ hall'.errands, errand.Ended) →
        ∀ user ∈ hall'.users, ∀ client decodes time,
          (onPremises user.semaphore.queueLength).attended
              (Keyspace.attend client decodes time) hall'.keys =
            some (.ok (initial.length + hall'.held), hall'.keys)) := by
  have haccounted : hall'.Accounted regime key initial.length :=
    (hopening.accounted hblocking hgathered hlists).leads hfair hkeeps hleads
  rcases haccounted.lists with ⟨line, hline, hlength⟩
  refine ⟨line, hline, ?_, ?_, ?_⟩
  · rw [hlength, credit_eq]
    omega
  · intro errand herrand hawaiting hempty
    rcases haccounted.conducted.meets errand herrand with ⟨key', _, hmeets⟩
    have hpaid := hmeets.awaiting_le Credit.prices
    have hcovered := worth_le_credit herrand
    rw [hempty, List.length_nil] at hlength
    omega
  · intro hended user huser client decodes time
    have hcredit := haccounted.conducted.credit_eq_zero hfair hended
    have huserKey := haccounted.gathered user huser
    rw [← huserKey] at hline
    rw [Semaphore.queueLength_attended hline, hlength, hcredit]
    rfl

/-!
## A stranger and four instances
-/

/-- Nothing goes wrong, the clock stands still, and nobody else changes the list under a key. -/
def calm (key : String) : Regime Float where
  faults _ _ := False
  estimates reply := ∃ duration, reply = .ok duration ∧ ¬ Seconds.Negative duration
  sleeps duration reply := Seconds.Negative duration ∨ reply = .ok ()
  clock time := time = 0
  elsewhere keys keys' := ∀ line, keys.Lists key line → keys'.Lists key line
  noRefusal _ _ h := h.elim

theorem calm_fair (key : String) : (calm key).Fair where
  faultless _ _ := id
  estimates _ h := h
  sleeps _ _ h hduration := h.resolve_left hduration
  clock started time hstarted htime := by
    cases hstarted
    cases htime
    exact ⟨0, by decide +kernel⟩

theorem calm_admits (key : String) : (calm key).Admits fun _ _ => false where
  estimate base hbase := ⟨base, rfl, hbase⟩
  sleep _ := Or.inr rfl
  now := rfl
  fault _ _ h := nomatch h

/-- Four blocking instances of the desk.  Somebody else has an entry in their queue. -/
def busyDesk : Hall Float where
  keys := { lists := [(desk.queueKey, ["stranger".toUTF8])] }
  users := List.replicate 4 ⟨.blocking, desk, []⟩
  errands := []

/-- The first two requests have to wait.  The second one runs out of time and removes the stranger,
so that the first is admitted.  The third waits, and the fourth is rejected.  Then the slot is given
back, and the third is admitted. -/
def shift : List (Turn Float) :=
  .call 0 (.acquire none) :: goOn 0 6 ++ .stir 0 .inTime :: goOn 0 2 ++
    .call 1 (.acquire (some 0)) :: goOn 1 6 ++ .stir 1 .inTime :: goOn 1 10 ++
    goOn 0 2 ++ .stir 0 .inTime :: goOn 0 4 ++
    .call 2 (.acquire none) :: goOn 2 6 ++ .stir 2 .inTime :: goOn 2 2 ++
    .call 3 (.acquire none) :: goOn 3 6 ++ .stir 3 .inTime :: goOn 3 7 ++
    .call 0 .release :: goOn 4 7 ++
    goOn 2 2 ++ .stir 2 .inTime :: goOn 2 4

/-- When all this has happened one slot is held, and the length of the queue is two. -/
theorem queue_ledger_of_shift : ∃ hall, Leads (calm desk.queueKey) busyDesk hall ∧
    hall.held = 1 ∧ (∀ errand ∈ hall.errands, errand.Ended) ∧
      ∀ user ∈ hall.users, ∀ client decodes time,
        (onPremises user.semaphore.queueLength).attended
            (Keyspace.attend client decodes time) hall.keys = some (.ok 2, hall.keys) := by
  have hdrive : ((busyDesk.drive (fun _ _ => false) shift).map fun hall =>
      (hall.held, hall.errands.all fun errand => errand.plan.result?.isSome)) =
      some (1, true) := by
    decide +kernel
  rcases Option.map_eq_some_iff.mp hdrive with ⟨hall, hhall, hseen⟩
  rcases Prod.mk.inj hseen with ⟨hheld, hall_ended⟩
  have hleads := drive_leads (calm_admits desk.queueKey) hhall
  have hended : ∀ errand ∈ hall.errands, errand.Ended := by
    intro errand herrand
    have hsome := List.all_eq_true.mp hall_ended errand herrand
    rcases Option.isSome_iff_exists.mp hsome with ⟨ended, hresult⟩
    exact ⟨ended, Plan.eq_of_result? hresult⟩
  have husers : ∀ user ∈ busyDesk.users, user = ⟨.blocking, desk, []⟩ :=
    fun user huser => List.eq_of_mem_replicate huser
  have hlists : busyDesk.keys.Lists desk.queueKey ["stranger".toUTF8] := by
    constructor
    · simp [busyDesk]
    · simp [busyDesk, Keyspace.items, Table.get?]
  have hopening : busyDesk.Opening := by
    refine ⟨?_, rfl⟩
    intro user huser
    rw [husers user huser]
  have hblocking : ∀ user ∈ busyDesk.users, user.mode = .blocking := by
    intro user huser
    rw [husers user huser]
  have hgathered : busyDesk.Gathered desk.queueKey := by
    intro user huser
    rw [husers user huser]
  rcases queue_ledger (calm_fair desk.queueKey) (fun _ _ h => h) hopening hblocking hgathered
    hlists hleads with ⟨line, _, _, _, hlength⟩
  refine ⟨hall, hleads, hheld, hended, ?_⟩
  intro user huser client decodes time
  rw [hlength hended user huser, hheld]
  rfl

end Hall
end Turnstile
