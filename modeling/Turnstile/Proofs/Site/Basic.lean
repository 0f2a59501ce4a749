import Turnstile.Proofs.CleanUp
import Turnstile.Proofs.Plan.Conclusion
import Turnstile.Proofs.Redis.Dispatch
import Turnstile.Proofs.Redis.Execution
import Turnstile.Proofs.Redis.Expiry

/-!
# A server where anything can go wrong

Everything that is sent to a server can fail, with any failure and before or after it took effect,
and in between others can change what the server keeps.  A site is such a server together with all
that was sent to it, so that what becomes of a clean-up can be told from what was sent.

A clean-up removes a head and renews an expiry.  The two commute, so that what they leave is known
from which of them took effect, and not from the order in which they did.

## Main definitions

* `Dispatch.succeeds` - whether a command did what its sender wanted.
* `Site.Answers` - what may be answered at a site.
* `Merges` - two lists are merged into one.

## Main statements

* `Site.swept_of_serves` - what a removal and a renewal leave, in whatever order they came.
-/

namespace Turnstile

open Redis

universe u

/-- The third list is made of the first two, each in its own order. -/
inductive Merges {α : Type u} : List α → List α → List α → Prop where
  | nil : Merges [] [] []
  | left {xs ys zs : List α} (a : α) (merges : Merges xs ys zs) : Merges (xs ++ [a]) ys (zs ++ [a])
  | right {xs ys zs : List α} (a : α) (merges : Merges xs ys zs) : Merges xs (ys ++ [a]) (zs ++ [a])

theorem Merges.perm {α : Type u} {xs ys zs : List α} (h : Merges xs ys zs) : zs.Perm (xs ++ ys) := by
  induction h with
  | nil => exact .refl _
  | @left xs ys zs a _ ih =>
      have hswap : (ys ++ [a]).Perm ([a] ++ ys) := List.perm_append_comm
      calc (zs ++ [a]).Perm (xs ++ ys ++ [a]) := ih.append_right [a]
        _ = xs ++ (ys ++ [a]) := List.append_assoc _ _ _
        List.Perm _ (xs ++ ([a] ++ ys)) := hswap.append_left xs
        _ = xs ++ [a] ++ ys := (List.append_assoc _ _ _).symm
  | @right xs ys zs a _ ih =>
      calc (zs ++ [a]).Perm (xs ++ ys ++ [a]) := ih.append_right [a]
        _ = xs ++ (ys ++ [a]) := List.append_assoc _ _ _

theorem Merges.eq_of_nil {α : Type u} {ys zs : List α} (h : Merges [] ys zs) : zs = ys := by
  generalize hxs : [] = xs at h
  induction h with
  | nil => rfl
  | left a _ ih => cases List.append_ne_nil_of_right_ne_nil _ (List.cons_ne_nil a []) hxs.symm
  | right a _ ih => rw [ih hxs]

theorem Merges.mem_iff {α : Type u} {xs ys zs : List α} (h : Merges xs ys zs) {a : α} :
    a ∈ zs ↔ a ∈ xs ∨ a ∈ ys := by
  rw [h.perm.mem_iff, List.mem_append]

variable {τ : Type}

namespace Dispatch

/-- How a use of the store under the name `label` ends that sends a command about a key.  Items that
were removed have to be texts. -/
def ended (label key : String) : Dispatch τ → Except (Failure τ) Unit
  | ⟨.lpop .., _, .ok popped⟩ =>
      (Queue.decodeItems ((popped : Option (List Item)).getD [])).map fun _ => ()
  | ⟨_, _, .ok _⟩ => .ok ()
  | ⟨command, _, .error e⟩ => .error (asStoreFailure label command.verb.name key e)

def succeeds : Dispatch τ → Bool
  | ⟨.lpop .., _, .ok popped⟩ =>
      (Queue.decodeItems (τ := τ) ((popped : Option (List Item)).getD [])).isOk
  | ⟨_, _, told⟩ => told.isOk

theorem ended_eq_ok_iff {dispatch : Dispatch τ} {label key : String} :
    dispatch.ended label key = .ok () ↔ dispatch.succeeds = true := by
  rcases dispatch with ⟨command, took, told⟩
  cases told with
  | error e => cases command <;> simp [ended, succeeds, Except.isOk, Except.toBool]
  | ok reply =>
      cases command with
      | lpop key' count =>
          cases h : Queue.decodeItems (τ := τ) (Option.getD reply []) with
          | ok ids => simp [ended, succeeds, h, Except.map, Except.isOk, Except.toBool]
          | error e => simp [ended, succeeds, h, Except.map, Except.isOk, Except.toBool]
      | _ => simp [ended, succeeds, Except.isOk, Except.toBool]

def took? (verb : Command.Verb) (dispatch : Dispatch τ) : Bool :=
  decide (dispatch.command.verb = verb) && dispatch.took

end Dispatch

variable [Seconds τ]

/-- A server, and all that was sent to it. -/
structure Site (τ : Type) where
  keys : Keyspace τ
  sent : List (Dispatch τ)

namespace Site

/-- What may be answered at a site.  Before a command comes to its server others may have changed
the keys, and any failure may come of it. -/
inductive Answers (others : Keyspace τ → Keyspace τ → Prop) (site : Site τ) :
    (r : (Premises τ).Request) → (Premises τ).Answer r → Site τ → Prop where
  | dial (endpoint : String) (client : Client) :
      Answers others site (.inl (.dial endpoint)) client site
  | call (client : Client) {command : Command} {took : Bool}
      {told : Except (Failure τ) command.Reply} {before after : Keyspace τ}
      (arrives : before = site.keys ∨ others site.keys before)
      (executed : Keyspace.Executed (fun _ => True) before command took told after) :
      Answers others site (.inl (.call client command)) told
        ⟨after, site.sent ++ [⟨command, took, told⟩]⟩
  | hangUp (client : Client) : Answers others site (.inl (.hangUp client)) () site
  | ambient (r : AmbientRequest τ) (answer : r.Answer τ) : Answers others site (.inr r) answer site

/-- Commands that were sent one after the other lead from some keys to others. -/
inductive Serves (others : Keyspace τ → Keyspace τ → Prop) (keys : Keyspace τ) :
    List (Dispatch τ) → Keyspace τ → Prop where
  | nil : Serves others keys [] keys
  | sends {sent : List (Dispatch τ)} {keys₁ before after : Keyspace τ} {command : Command}
      {took : Bool} {told : Except (Failure τ) command.Reply} (serves : Serves others keys sent keys₁)
      (arrives : before = keys₁ ∨ others keys₁ before)
      (executed : Keyspace.Executed (fun _ => True) before command took told after) :
      Serves others keys (sent ++ [⟨command, took, told⟩]) after

variable {others : Keyspace τ → Keyspace τ → Prop} {site site' : Site τ} {keys keys' : Keyspace τ}

theorem exists_answers (site : Site τ) (r : (Premises τ).Request) :
    ∃ answer site', Answers others site r answer site' := by
  rcases r with (endpoint | ⟨client, command⟩ | client) | r
  · exact ⟨_, _, .dial endpoint ⟨0, endpoint, {}⟩⟩
  · exact ⟨_, _, .call client (Or.inl rfl) (.answered false 0)⟩
  · exact ⟨_, _, .hangUp client⟩
  · rcases r.nonempty_answer with ⟨answer⟩
    exact ⟨answer, site, .ambient r answer⟩

/-!
## What is left
-/

section Swept

variable {ticket : Ticket τ} {sent : List (Dispatch τ)} {renewed popped : Bool} {time : τ}

def took (verb : Command.Verb) (sent : List (Dispatch τ)) : Bool :=
  sent.any (Dispatch.took? verb)

/-- What a clean-up leaves that renewed the expiry at some time, if it did, and removed the head, if
it did. -/
def swept (ticket : Ticket τ) (time : τ) (renewed popped : Bool) (keys : Keyspace τ) : Keyspace τ :=
  let keys := if renewed then (keys.expire time ticket.queueKey ticket.expiry).2 else keys
  if popped then (keys.lpop false ticket.queueKey 1).2 else keys

theorem swept_lpop (decodes : Bool) :
    ((swept ticket time renewed false keys).lpop decodes ticket.queueKey 1).2 =
      swept ticket time renewed true keys :=
  Keyspace.lpop_decodes decodes

theorem swept_expire (later : τ) :
    ((swept ticket time false popped keys).expire later ticket.queueKey ticket.expiry).2 =
      swept ticket later true popped keys := by
  cases popped with
  | false => rfl
  | true => exact Keyspace.expire_lpop keys ticket.queueKey later ticket.one_le_expiry

omit [Seconds τ] in
theorem took_concat (verb : Command.Verb) (dispatch : Dispatch τ) :
    took verb (sent ++ [dispatch]) = (took verb sent || dispatch.took? verb) := by
  simp [took]

omit [Seconds τ] in
theorem not_took_of_countP {verb : Command.Verb} {dispatch : Dispatch τ}
    (honce : (sent ++ [dispatch]).countP (Dispatch.took? verb) ≤ 1)
    (htook : dispatch.took? verb = true) : took verb sent = false := by
  rw [List.countP_append, List.countP_singleton, if_pos htook] at honce
  have hnone : sent.countP (Dispatch.took? verb) = 0 := by omega
  rw [took, List.any_eq_false]
  exact List.countP_eq_zero.mp hnone

theorem executed_keys {before after : Keyspace τ} {command : Command} {took : Bool}
    {told : Except (Failure τ) command.Reply}
    (h : Keyspace.Executed (fun _ => True) before command took told after) :
    took = false ∧ after = before ∨
      took = true ∧ ∃ decodes time, after = (before.run decodes time command).2 := by
  cases h with
  | answered decodes time => exact Or.inr ⟨rfl, decodes, time, rfl⟩
  | refused fault => exact Or.inl ⟨rfl, rfl⟩
  | lost fault decodes time => exact Or.inr ⟨rfl, decodes, time, rfl⟩

def Sweeps (ticket : Ticket τ) (command : Command) : Prop :=
  command = .ping ∨ command = .lpop ticket.queueKey 1 ∨
    command = .expire ticket.queueKey ticket.expiry

theorem swept_run {command : Command} {told : Except (Failure τ) command.Reply} (decodes : Bool)
    (later : τ) (hcommand : Sweeps ticket command)
    (honce : ∀ verb, verb ≠ .ping →
      (sent ++ [Dispatch.mk command true told]).countP (Dispatch.took? verb) ≤ 1) :
    ∃ time', ((swept ticket time (took .expire sent) (took .lpop sent) keys).run decodes later
        command).2 =
      swept ticket time' (took .expire (sent ++ [⟨command, true, told⟩]))
        (took .lpop (sent ++ [⟨command, true, told⟩])) keys := by
  have hfresh : command.verb ≠ .ping → took command.verb sent = false := by
    intro hping
    apply not_took_of_countP (honce _ hping)
    simp [Dispatch.took?]
  rcases hcommand with rfl | rfl | rfl
  · exists time
    simp [took_concat, Dispatch.took?, Command.verb, Keyspace.run]
  · exists time
    have hpopped : took .lpop sent = false := hfresh (by simp [Command.verb])
    simp only [took_concat, Dispatch.took?, Command.verb, Keyspace.run, hpopped]
    simpa using swept_lpop decodes
  · exists later
    have hrenewed : took .expire sent = false := hfresh (by simp [Command.verb])
    simp only [took_concat, Dispatch.took?, Command.verb, Keyspace.run, hrenewed]
    simpa using swept_expire later

/-- Where nobody else changes the keys, a removal and a renewal leave the same in whatever order they
came and whatever was told of them. -/
theorem swept_of_serves (hidle : ∀ keys keys', others keys keys' → keys' = keys)
    (h : Serves others keys sent keys')
    (hcommands : ∀ dispatch ∈ sent, Sweeps ticket dispatch.command)
    (honce : ∀ verb, verb ≠ .ping → sent.countP (Dispatch.took? verb) ≤ 1) :
    ∃ time, keys' = swept ticket time (took .expire sent) (took .lpop sent) keys := by
  induction h with
  | nil => exact ⟨(0 : τ), rfl⟩
  | @sends sent keys₁ before after command took' told serves arrives executed ih =>
      have hbefore : before = keys₁ := by
        rcases arrives with hsame | hothers
        · exact hsame
        · exact hidle _ _ hothers
      have hearlier : ∀ verb, verb ≠ .ping → sent.countP (Dispatch.took? verb) ≤ 1 := by
        intro verb hverb
        have hcount := honce verb hverb
        rw [List.countP_append] at hcount
        omega
      rcases ih (fun d hd => hcommands d (List.mem_append_left _ hd)) hearlier with ⟨time, hkeys⟩
      subst hbefore hkeys
      rcases executed_keys executed with ⟨rfl, rfl⟩ | ⟨rfl, decodes, later, rfl⟩
      · exists time
        simp [took_concat, Dispatch.took?]
      · exact swept_run decodes later (hcommands ⟨command, true, told⟩ (by simp)) honce

end Swept
end Site
end Turnstile
