import Turnstile.Proofs.Hall.Solvency

/-!
# Slots that are handed back

A release takes the oldest slot of its instance before it does anything else, and never puts it
back.  When the release has ended the slot is no longer held, however the release ended.  If the
removal of a head failed before it took effect then the entry of the slot is still in the queue,
but there is no slot any more with which the removal could be tried again.

Nothing is assumed of the surroundings, and other instances may be used meanwhile.

## Main definitions

* `Handover` - how far a release has come.

## Main statements

* `Hall.slot_gone_after_release` - what is held and what is removed when a release has ended.
-/

namespace Turnstile

open Redis

variable {τ : Type} [Seconds τ]

/-- How far a release has come: nothing was asked yet, or the slot was taken, or the removal of a
head was asked for as well. -/
inductive Handover where
  | before
  | taken
  | removed
  deriving DecidableEq

namespace Handover

def allows (key : String) (φ : Handover) : (Premises τ).Request → Prop
  | .inl (.call _ command) =>
      match command with
      | .ping => True
      | .lpop key' count => key' = key ∧ count = 1 ∧ φ = .taken
      | .expire key' seconds => key' = key ∧ 1 ≤ seconds
      | _ => False
  | .inl _ => True
  | .inr r =>
      match r with
      | .record .. => True
      | .takeOldest => φ = .before
      | _ => False

/-- The slot that is taken is the oldest one. -/
def expects (ticket : Ticket τ) :
    (r : (Premises τ).Request) → (Premises τ).Answer r → Prop
  | .inr .takeOldest, oldest => oldest = some ticket
  | _, _ => True

def after (φ : Handover) : (Premises τ).Request → Handover
  | .inl (.call _ (.lpop ..)) => .removed
  | .inr .takeOldest => .taken
  | _ => φ

def terms (ticket : Ticket τ) : Plan.Terms (Premises τ) Handover where
  ask φ r post :=
    φ.allows ticket.queueKey r ∧ ∀ a, expects ticket r a → post (φ.after r) a
  ask_mono hpost h := ⟨h.1, fun a ha => hpost _ a (h.2 a ha)⟩
  interruptible := True

/-- What is held by an instance that held a slot and others after it, when the release of that slot
has come so far. -/
def slots (ticket : Ticket τ) (rest : List (Ticket τ)) : Handover → List (Ticket τ)
  | .before => ticket :: rest
  | .taken | .removed => rest

def removals : Handover → Nat
  | .before | .taken => 0
  | .removed => 1

variable {ticket : Ticket τ} {φ : Handover}

theorem cleansUp : CleansUp (terms ticket) ticket.queueKey True .taken .removed where
  renews r hr φ post _ hpost := by
    rcases r with (_ | ⟨client, command⟩ | _) | r
    · exact ⟨trivial, fun a _ => hpost a⟩
    · cases command with
      | ping => exact ⟨trivial, fun a _ => hpost a⟩
      | expire key' seconds => exact ⟨hr, fun a _ => hpost a⟩
      | _ => exact hr.elim
    · exact ⟨trivial, fun a _ => hpost a⟩
    · cases r with
      | record mode entry => exact ⟨trivial, fun a _ => hpost a⟩
      | _ => exact hr.elim
  reaches client post hok herror := by
    constructor
    · trivial
    · intro (reply : Except (Failure τ) Unit) _
      cases reply with
      | ok _ => exact hok
      | error e => exact herror trivial e
  removes client post hpost := ⟨⟨rfl, rfl, rfl⟩, fun a _ => hpost a⟩

theorem giveBack_hands_over {cleanUp : Ticket τ → Operation Queue τ Unit}
    {semaphore : Semaphore τ}
    (hcleanUp : Action.Keeps serveOnPremises (cleanUp ticket) (terms ticket) .taken
      (fun φ _ => φ = .removed ∨ φ = .taken) fun φ _ => φ = .removed ∨ φ = .taken) :
    Action.Keeps serveOnPremises (semaphore.giveBack cleanUp) (terms ticket) .before
      (fun φ _ => φ ≠ .before) fun φ _ => φ ≠ .before := by
  have hleft : ∀ φ : Handover, φ = .removed ∨ φ = .taken → φ ≠ .before := by
    intro φ hφ heq
    rcases hφ with hremoved | htaken
    · cases hremoved.symm.trans heq
    · cases htaken.symm.trans heq
  apply Action.keeps_bind
  apply Action.keeps_lift
  apply meets_ambient
  constructor
  · rfl
  · intro oldest holdest
    cases (show oldest = some ticket from holdest)
    exact hcleanUp.mono (fun φ _ => hleft φ) fun φ _ => hleft φ

theorem release_hands_over (user : User τ) :
    Action.Keeps serveOnPremises user.release (terms ticket) .before (fun φ _ => φ ≠ .before)
      fun φ _ => φ ≠ .before := by
  unfold User.release
  cases user.mode with
  | blocking =>
      apply giveBack_hands_over
      apply (Blocking.cleanUp_keeps cleansUp).mono
      · intro φ _ hφ
        exact Or.inl hφ
      · intro φ _ hφ
        exact hφ.imp_right And.right
  | cooperative =>
      apply giveBack_hands_over
      apply (Cooperative.cleanUp_keeps cleansUp).mono
      · intro φ _ hφ
        exact hφ.imp_right And.right
      · intro φ _ hφ
        exact hφ.imp_right And.right

end Handover

namespace Hall

def slots (hall : Hall τ) (number : Nat) : List (Ticket τ) :=
  (hall.users[number]?.map fun user => user.held).getD []

variable {regime : Regime τ} {hall hall' : Hall τ} {number : Nat} {r : (Premises τ).Request}
  {answer : (Premises τ).Answer r} {sent : List (Dispatch τ)} {user : User τ} {ticket : Ticket τ}
  {rest : List (Ticket τ)}

theorem slots_of_split {before after : List (User τ)}
    (split : hall.users = before ++ user :: after) (place : before.length = number) :
    hall.slots number = user.held := by
  unfold slots
  rw [getElem?_of_split split place]
  rfl

/-!
## Answers
-/

theorem Answers.slots_of_ne {other : Nat} (h : Answers regime hall other r answer sent hall')
    (hne : number ≠ other) : hall'.slots number = hall.slots number := by
  unfold slots
  rw [h.users_of_ne hne]

theorem Answers.expects_oldest {φ : Handover} (h : Answers regime hall number r answer sent hall')
    (hallows : φ.allows ticket.queueKey r) (hslots : hall.slots number = φ.slots ticket rest) :
    Handover.expects ticket r answer := by
  cases h with
  | takeOldest split place oldest =>
      rw [show φ = .before from hallows, slots_of_split split place, oldest] at hslots
      cases hslots
      rfl
  | noneHeld split place empty =>
      rw [show φ = .before from hallows, slots_of_split split place, empty] at hslots
      cases hslots
  | _ => trivial

theorem Answers.slots_eq {φ : Handover} (h : Answers regime hall number r answer sent hall')
    (hallows : φ.allows ticket.queueKey r) (hslots : hall.slots number = φ.slots ticket rest) :
    hall'.slots number = (φ.after r).slots ticket rest := by
  cases h with
  | @call client command took reply keys executed =>
      cases command with
      | lpop key' count =>
          rw [show φ = .taken from hallows.2.2] at hslots
          exact hslots
      | _ => exact hslots
  | hold ticket split place => exact hallows.elim
  | @takeOldest before after user oldest rest' split place held =>
      rw [show φ = .before from hallows, slots_of_split split place, held] at hslots
      cases hslots
      have hsplit : ({ hall with users := before ++ { user with held := rest } :: after } :
          Hall τ).users = before ++ { user with held := rest } :: after := rfl
      exact slots_of_split hsplit place
  | noneHeld split place empty =>
      rw [show φ = .before from hallows, slots_of_split split place, empty] at hslots
      cases hslots
  | _ => exact hslots

theorem Answers.pops_le {φ : Handover} (h : Answers regime hall number r answer sent hall')
    (hallows : φ.allows ticket.queueKey r) :
    sent.countP Dispatch.pops + φ.removals ≤ (φ.after r).removals := by
  cases h with
  | @call client command took reply keys executed =>
      cases command with
      | lpop key' count =>
          rw [show φ = .taken from hallows.2.2]
          exact List.countP_le_length
      | _ => exact Nat.le_of_eq (Nat.zero_add _)
  | takeOldest split place oldest =>
      rw [show φ = .before from hallows]
      exact Nat.le_refl 0
  | noneHeld split place empty =>
      rw [show φ = .before from hallows]
      exact Nat.le_refl 0
  | _ => exact Nat.le_of_eq (Nat.zero_add _)

theorem Answers.drops {φ : Handover} {line : List ByteArray}
    (h : Answers regime hall number r answer sent hall') (hallows : φ.allows ticket.queueKey r)
    (hlists : hall.keys.Lists ticket.queueKey line) :
    hall'.keys.Lists ticket.queueKey (line.drop (sent.countP Dispatch.pops)) := by
  cases h with
  | @call client command took reply keys executed =>
      cases command with
      | ping => exact executed.lists_same hlists trivial rfl
      | expire key' seconds => exact executed.lists_same hlists hallows rfl
      | lpop key' count =>
          have hlists' := executed.lists hlists ⟨hallows.1, hallows.2.1⟩
          cases took with
          | true =>
              change keys.Lists ticket.queueKey (line.drop 1)
              rw [List.drop_one]
              exact hlists'
          | false => exact hlists'
      | _ => exact hallows.elim
  | _ => exact hlists

/-!
## Releases
-/

/-- No use of an instance goes on, apart from the one at a place. -/
def Alone (hall : Hall τ) (number place : Nat) : Prop :=
  ∀ place' errand, hall.errands[place']? = some errand → errand.user = number → place' = place

/-- The release at a place has come so far, and what holds of it then. -/
structure Releases (regime : Regime τ) (origin : Keyspace τ) (number place : Nat)
    (ticket : Ticket τ) (rest : List (Ticket τ)) (φ : Handover) (errand : Errand τ)
    (hall : Hall τ) : Prop where
  here : hall.errands[place]? = some errand
  user : errand.user = number
  meets : errand.plan.Meets (Handover.terms ticket) φ fun φ' _ => φ' ≠ .before
  slots : hall.slots number = φ.slots ticket rest
  pops : errand.sent.countP Dispatch.pops ≤ φ.removals
  drops : hall.errands.length = 1 → regime.Keeps ticket.queueKey →
    ∀ line, origin.Lists ticket.queueKey line →
      hall.keys.Lists ticket.queueKey (line.drop (errand.sent.countP Dispatch.pops))

theorem Step.errands {place : Nat} {errand : Errand τ} (hstep : Step regime hall hall')
    (herrand : hall.errands[place]? = some errand) :
    ∃ errand', hall'.errands[place]? = some errand' ∧ errand'.user = errand.user := by
  have hreplaced : ∀ {before after : List (Errand τ)} {other other' : Errand τ},
      hall.errands = before ++ other :: after → other'.user = other.user →
        ∃ errand', (before ++ other' :: after)[place]? = some errand' ∧
          errand'.user = errand.user := by
    intro before after other other' hsplit huser
    rw [hsplit] at herrand
    by_cases hplace : before.length = place
    · subst hplace
      rw [getElem?_here] at herrand
      cases herrand
      exact ⟨other', getElem?_here _ _ _, huser⟩
    · rw [← getElem?_replaced hplace] at herrand
      exact ⟨errand, herrand, rfl⟩
  cases hstep with
  | call use hhere =>
      exists errand
      rw [List.getElem?_append_left (List.getElem?_eq_some_iff.mp herrand).1]
      exact ⟨herrand, rfl⟩
  | turn split turns => exact hreplaced split rfl
  | hears split asks answers => exact hreplaced split rfl
  | elsewhere keys allowed => exact ⟨errand, herrand, rfl⟩

theorem Alone.of_step {place : Nat} (hstep : Step regime hall hall')
    (halone : hall'.Alone number place) : hall.Alone number place := by
  intro place' errand herrand huser
  rcases hstep.errands herrand with ⟨errand', herrand', huser'⟩
  exact halone place' errand' herrand' (huser'.trans huser)

theorem Releases.step {origin : Keyspace τ} {place : Nat} {φ : Handover} {errand : Errand τ}
    (h : hall.Releases regime origin number place ticket rest φ errand)
    (halone : hall.Alone number place) (hstep : Step regime hall hall') :
    ∃ φ' errand', hall'.Releases regime origin number place ticket rest φ' errand' := by
  cases hstep with
  | call use hhere =>
      exists φ, errand
      constructor
      · rw [List.getElem?_append_left (List.getElem?_eq_some_iff.mp h.here).1]
        exact h.here
      · exact h.user
      · exact h.meets
      · exact h.slots
      · exact h.pops
      · intro hone
        have hlt := (List.getElem?_eq_some_iff.mp h.here).1
        rw [List.length_append, List.length_singleton] at hone
        omega
  | @turn before after other plan split turns =>
      have hhere := h.here
      rw [split] at hhere
      have hlength : (before ++ { other with plan := plan } :: after).length =
          hall.errands.length := by
        rw [split, List.length_append, List.length_append, List.length_cons, List.length_cons]
      by_cases hplace : before.length = place
      · subst hplace
        rw [getElem?_here] at hhere
        cases hhere
        exists φ, { errand with plan := plan }
        constructor
        · exact getElem?_here _ _ _
        · exact h.user
        · exact h.meets.turns turns
        · exact h.slots
        · exact h.pops
        · intro hone
          exact h.drops (hlength.symm.trans hone)
      · rw [← getElem?_replaced hplace] at hhere
        exists φ, errand
        constructor
        · exact hhere
        · exact h.user
        · exact h.meets
        · exact h.slots
        · exact h.pops
        · intro hone
          exact h.drops (hlength.symm.trans hone)
  | @hears before after other r answer sent plan hall'' split asks answers =>
      have hhere := h.here
      rw [split] at hhere
      have hlength : (before ++ other.resume r answer sent plan :: after).length =
          hall.errands.length := by
        rw [split, List.length_append, List.length_append, List.length_cons, List.length_cons]
      by_cases hplace : before.length = place
      · subst hplace
        rw [getElem?_here] at hhere
        cases hhere
        rcases h.meets.asks asks with ⟨hallows, hnext⟩
        rw [h.user] at answers
        have hexpects := answers.expects_oldest hallows h.slots
        exists φ.after r, errand.resume r answer sent plan
        constructor
        · exact getElem?_here _ _ _
        · exact h.user
        · exact hnext answer hexpects rfl
        · exact answers.slots_eq hallows h.slots
        · have hpops := answers.pops_le hallows
          have hbefore := h.pops
          change (errand.sent ++ sent).countP Dispatch.pops ≤ _
          rw [List.countP_append]
          omega
        · intro hone hkeeps line hline
          have hlists := h.drops (hlength.symm.trans hone) hkeeps line hline
          change hall''.keys.Lists _ (line.drop ((errand.sent ++ sent).countP Dispatch.pops))
          rw [List.countP_append, ← List.drop_drop]
          exact answers.drops hallows hlists
      · have hother : other.user ≠ number := by
          intro huser
          have hhere' : hall.errands[before.length]? = some other := by
            rw [split]
            exact getElem?_here _ _ _
          exact hplace (halone _ other hhere' huser)
        rw [← getElem?_replaced hplace] at hhere
        exists φ, errand
        constructor
        · exact hhere
        · exact h.user
        · exact h.meets
        · exact (answers.slots_of_ne hother.symm).trans h.slots
        · exact h.pops
        · intro hone
          have hlt := (List.getElem?_eq_some_iff.mp hhere).1
          change (before ++ other.resume r answer sent plan :: after).length = 1 at hone
          rw [List.length_append, List.length_cons] at hone hlt
          omega
  | elsewhere keys allowed =>
      exists φ, errand
      exact ⟨h.here, h.user, h.meets, h.slots, h.pops, fun hone hkeeps line hline =>
        hkeeps _ _ allowed _ (h.drops hone hkeeps line hline)⟩

/-- If no other use of its instance goes on when a release has ended, then the instance holds one
slot less, whether the release failed or not, and at most one head was removed.  If there is no use
of any other instance either then the list is what it was, apart from a head that was removed: where
the removal took no effect, the entry of the slot is still there, and nobody holds the slot. -/
theorem slot_gone_after_release {errand : Errand τ} {outcome : Except (Failure τ) Unit}
    (hhere : hall.users[number]? = some user) (hheld : user.held = ticket :: rest)
    (hleads : Leads regime (hall.called number user .release) hall')
    (halone : hall'.Alone number hall.errands.length)
    (herrand : hall'.errands[hall.errands.length]? = some errand)
    (hended : errand.plan = .pure outcome) :
    hall'.slots number = rest ∧ errand.sent.countP Dispatch.pops ≤ 1 ∧
      (hall'.errands.length = 1 → regime.Keeps ticket.queueKey →
        ∀ line, hall.keys.Lists ticket.queueKey line →
          hall'.keys.Lists ticket.queueKey (line.drop (errand.sent.countP Dispatch.pops))) := by
  have hreleases : ∃ φ errand', hall'.Releases regime hall.keys number hall.errands.length ticket
      rest φ errand' := by
    clear herrand hended
    induction hleads with
    | refl =>
        exists .before, ⟨number, .blank, [], onPremises (Use.release.operation user)⟩
        constructor
        · exact getElem?_here _ _ _
        · rfl
        · apply Plan.Meets.mono (Handover.release_hands_over user)
          intro φ ended hφ
          cases ended with
          | ok _ => exact hφ
          | error e => exact hφ
        · unfold slots Hall.called
          rw [hhere]
          exact hheld
        · exact Nat.le_refl 0
        · intro _ _ line hline
          exact hline
    | tail _ hstep ih =>
        have halone' := halone.of_step hstep
        rcases ih halone' with ⟨φ, errand', hreleases⟩
        exact hreleases.step halone' hstep
  rcases hreleases with ⟨φ, errand', hreleases⟩
  have hsame := hreleases.here.symm.trans herrand
  cases hsame
  have hmeets := hreleases.meets
  rw [hended] at hmeets
  have hslots := hreleases.slots
  have hpops := hreleases.pops
  cases φ with
  | before => exact absurd rfl hmeets
  | taken => exact ⟨hslots, Nat.le_succ_of_le hpops, hreleases.drops⟩
  | removed => exact ⟨hslots, hpops, hreleases.drops⟩

/-!
## A server that is away
-/

def deskTicket : Ticket Float where
  toTicketForm := desk.ticketForm "0"
  sound := by decide +kernel

def mannedDesk (mode : Mode) : Hall Float where
  keys := { lists := [(desk.queueKey, ["0".toUTF8])] }
  users := [⟨mode, desk, [deskTicket]⟩]
  errands := []

def refusedRemoval : Mode → List (Turn Float)
  | .blocking => goOn 0 3 ++ .fail 0 (.client .refused) false :: goOn 0 2
  | .cooperative =>
      goOn 0 8 ++ .fail 0 (.client .refused) false :: goOn 0 1 ++ [.stir 0 .inTime]

/-- Anything may go wrong, but nobody else changes the keys. -/
def secluded : Regime Float :=
  { Regime.lawless with elsewhere := fun keys keys' => keys' = keys }

/-- A release of the desk has failed, its removal took no effect, and no slot is held although the
entry of the slot is still in the queue. -/
def SlotLost (mode : Mode) : Prop :=
  ∃ hall errand e,
    Leads secluded ((mannedDesk mode).called 0 ⟨mode, desk, [deskTicket]⟩ .release) hall ∧
      hall.errands[0]? = some errand ∧ errand.plan = .pure (.error e) ∧
      errand.sent.countP Dispatch.pops = 0 ∧ hall.slots 0 = [] ∧
      hall.keys.Lists desk.queueKey ["0".toUTF8]

/-- What a hall shows of its only use: how many heads it has removed, and whether it has failed. -/
def onlyUse? (hall : Hall τ) : Option (Nat × Bool) :=
  match hall.errands with
  | [errand] =>
      match errand.plan with
      | .pure (.error _) => some (errand.sent.countP Dispatch.pops, true)
      | _ => some (errand.sent.countP Dispatch.pops, false)
  | _ => none

theorem eq_of_onlyUse? (h : hall.onlyUse? = some (0, true)) : ∃ errand e,
    hall.errands = [errand] ∧ errand.plan = .pure (.error e) ∧
      errand.sent.countP Dispatch.pops = 0 := by
  unfold onlyUse? at h
  split at h
  · rename_i errand herrands
    split at h
    · rename_i e hplan
      exact ⟨errand, e, herrands, hplan, (Prod.mk.inj (Option.some.inj h)).1⟩
    · cases (Prod.mk.inj (Option.some.inj h)).2
  · cases h

/-- Both a blocking and a cooperative release lose the slot when the server is away for the
removal. -/
theorem slot_gone_after_release_of_refusedRemoval : SlotLost .blocking ∧ SlotLost .cooperative := by
  have hadmits : secluded.Admits fun _ e => !Blocking.isRefusal e := by
    constructor
    · exact fun _ _ => trivial
    · exact fun _ => trivial
    · trivial
    · intro command e he
      rw [Bool.not_eq_true'] at he
      exact he
  have hlost : ∀ mode, (((mannedDesk mode).called 0 ⟨mode, desk, [deskTicket]⟩ .release).drive
      (fun _ e => !Blocking.isRefusal e) (refusedRemoval mode)).bind onlyUse? = some (0, true) →
        SlotLost mode := by
    intro mode hdrive
    rcases Option.bind_eq_some_iff.mp hdrive with ⟨hall, hhall, honly⟩
    rcases eq_of_onlyUse? honly with ⟨errand, e, herrands, hplan, hpops⟩
    have hleads := drive_leads hadmits hhall
    have hhere : hall.errands[0]? = some errand := by rw [herrands]; rfl
    have halone : hall.Alone 0 0 := by
      intro place other hother _
      rw [herrands] at hother
      cases place with
      | zero => rfl
      | succ place => cases hother
    have hlists : (mannedDesk mode).keys.Lists desk.queueKey ["0".toUTF8] := by
      constructor
      · exact List.not_mem_nil
      · rfl
    have huser : (mannedDesk mode).users[0]? = some ⟨mode, desk, [deskTicket]⟩ := rfl
    have hgone := slot_gone_after_release huser rfl hleads halone hhere hplan
    have hkeeps : secluded.Keeps deskTicket.queueKey := by
      intro keys keys' helsewhere line hline
      rw [show keys' = keys from helsewhere]
      exact hline
    have hline := hgone.2.2 (by rw [herrands]; rfl) hkeeps _ hlists
    rw [hpops] at hline
    exact ⟨hall, errand, e, hleads, hhere, hplan, hpops, hgone.1, hline⟩
  constructor
  · exact hlost .blocking (by decide +kernel)
  · exact hlost .cooperative (by decide +kernel)

end Hall
end Turnstile
