import Turnstile.Proofs.Redis.Disturbance
import Turnstile.Proofs.Redis.Execution

/-!
# Keyspaces that agree at a key

Two keyspaces agree at a key if they hold the same under it, with the same deadline.  A command
reads and changes no other key than its own, so that they still agree at every key where they did
after the same command was sent to both, and agree with what they were at every other key.

## Main statements

* `Keyspace.SameAt.run` - the same command keeps an agreement.
* `Keyspace.sameAt_run_of_ne` - a command leaves every other key as it is.
* `Keyspace.sameAt_purge_purge` - it does not matter how often lapsed keys are removed.
-/

namespace Turnstile

theorem Redis.Command.OfQueue.key? {key : String} {command : Command}
    (h : command.OfQueue key) : command.key? = none ∨ command.key? = some key := by
  cases command with
  | ping => exact Or.inl rfl
  | lpop key' count => exact Or.inr (congrArg some h.1)
  | expire key' seconds => exact Or.inr (congrArg some h.1)
  | _ => exact Or.inr (congrArg some h)

namespace Redis
namespace Keyspace

variable {τ : Type} {keys a b c : Keyspace τ} {key other : String}

theorem contains_filter (keep : String → Bool) (names : List String) (name : String) :
    (names.filter keep).contains name = (keep name && names.contains name) := by
  rw [Bool.eq_iff_iff, Bool.and_eq_true, List.contains_iff_mem, List.contains_iff_mem,
    List.mem_filter, and_comm]

structure SameAt (key : String) (a b : Keyspace τ) : Prop where
  lists : a.lists.get? key = b.lists.get? key
  others : a.others.contains key = b.others.contains key
  deadlines : a.deadlines.get? key = b.deadlines.get? key

namespace SameAt

@[refl]
theorem refl (key : String) (keys : Keyspace τ) : keys.SameAt key keys :=
  ⟨rfl, rfl, rfl⟩

theorem symm (h : a.SameAt key b) : b.SameAt key a :=
  ⟨h.lists.symm, h.others.symm, h.deadlines.symm⟩

theorem trans (hab : a.SameAt key b) (hbc : b.SameAt key c) : a.SameAt key c :=
  ⟨hab.lists.trans hbc.lists, hab.others.trans hbc.others, hab.deadlines.trans hbc.deadlines⟩

theorem items_eq (h : a.SameAt key b) : a.items key = b.items key := by
  unfold items
  rw [h.lists]

theorem list?_eq (h : a.SameAt key b) : a.list? key = b.list? key := by
  unfold list?
  rw [h.others, h.lists]

theorem holds_eq (h : a.SameAt key b) : a.holds key = b.holds key := by
  unfold holds
  rw [h.others, h.lists]

/-!
## Changes of a key
-/

theorem drop (h : a.SameAt key b) : (a.drop other).SameAt key (b.drop other) := by
  constructor
  · simp only [Keyspace.drop, Table.get?_drop, h.lists]
  · simp only [Keyspace.drop, contains_filter, h.others]
  · simp only [Keyspace.drop, Table.get?_drop, h.deadlines]

theorem setItems (h : a.SameAt key b) (items : List ByteArray) :
    (a.setItems other items).SameAt key (b.setItems other items) := by
  unfold Keyspace.setItems
  split
  · exact h.drop
  · constructor
    · simp only [Table.get?_put, h.lists]
    · exact h.others
    · exact h.deadlines

theorem setDeadline (h : a.SameAt key b) (deadline : τ) :
    (a.setDeadline other deadline).SameAt key (b.setDeadline other deadline) := by
  constructor
  · exact h.lists
  · exact h.others
  · simp only [Keyspace.setDeadline, Table.get?_put, h.deadlines]

end SameAt

theorem sameAt_drop_of_ne (keys : Keyspace τ) (hne : other ≠ key) :
    (keys.drop other).SameAt key keys := by
  constructor
  · simp only [drop, Table.get?_drop, if_neg hne]
  · simp only [drop, contains_filter, bne_iff_ne.mpr hne.symm, Bool.true_and]
  · simp only [drop, Table.get?_drop, if_neg hne]

theorem sameAt_setItems_of_ne (keys : Keyspace τ) (hne : other ≠ key) (items : List ByteArray) :
    (keys.setItems other items).SameAt key keys := by
  unfold setItems
  split
  · exact sameAt_drop_of_ne keys hne
  · constructor
    · simp only [Table.get?_put, if_neg hne]
    · rfl
    · rfl

theorem sameAt_setDeadline_of_ne (keys : Keyspace τ) (hne : other ≠ key) (deadline : τ) :
    (keys.setDeadline other deadline).SameAt key keys := by
  constructor
  · rfl
  · rfl
  · simp only [setDeadline, Table.get?_put, if_neg hne]

variable [Seconds τ] {now later : τ} {command : Command}

/-!
## Commands
-/

theorem sameAt_run_of_ne (keys : Keyspace τ) (decodes : Bool) (now : τ)
    (hkey : command.key? ≠ some key) : (keys.run decodes now command).2.SameAt key keys := by
  cases command with
  | ping => rfl
  | lpos other id => rfl
  | llen other => rfl
  | rpush other id =>
      have hne : other ≠ key := fun heq => hkey (congrArg some heq)
      show (keys.rpush other id).2.SameAt key keys
      unfold rpush
      split
      · rfl
      · exact sameAt_setItems_of_ne keys hne _
  | lpop other count =>
      have hne : other ≠ key := fun heq => hkey (congrArg some heq)
      show (keys.lpop decodes other count).2.SameAt key keys
      unfold lpop
      split
      · rfl
      · split
        · rfl
        · split
          · rfl
          · exact sameAt_setItems_of_ne keys hne _
  | expire other seconds =>
      have hne : other ≠ key := fun heq => hkey (congrArg some heq)
      show (keys.expire now other seconds).2.SameAt key keys
      unfold expire
      split
      · rfl
      · split
        · exact sameAt_drop_of_ne keys hne
        · split
          · rfl
          · exact sameAt_setDeadline_of_ne keys hne _

/-- Where two keyspaces agree a command is met with the same response, and they still agree. -/
theorem SameAt.run_of_key (h : a.SameAt key b) (decodes : Bool) (now : τ)
    (hkey : command.key? = some key) :
    (a.run decodes now command).1 = (b.run decodes now command).1 ∧
      (a.run decodes now command).2.SameAt key (b.run decodes now command).2 := by
  cases command with
  | ping => cases hkey
  | lpos other id =>
      cases hkey
      show a.lpos key id = b.lpos key id ∧ a.SameAt key b
      unfold lpos
      rw [h.list?_eq]
      exact ⟨rfl, h⟩
  | llen other =>
      cases hkey
      show a.llen key = b.llen key ∧ a.SameAt key b
      unfold llen
      rw [h.list?_eq]
      exact ⟨rfl, h⟩
  | rpush other id =>
      cases hkey
      show (a.rpush key id).1 = (b.rpush key id).1 ∧
        (a.rpush key id).2.SameAt key (b.rpush key id).2
      unfold rpush
      rw [h.list?_eq]
      cases b.list? key with
      | error e => exact ⟨rfl, h⟩
      | ok items? => exact ⟨rfl, h.setItems _⟩
  | lpop other count =>
      cases hkey
      show (a.lpop decodes key count).1 = (b.lpop decodes key count).1 ∧
        (a.lpop decodes key count).2.SameAt key (b.lpop decodes key count).2
      unfold lpop
      rw [h.list?_eq]
      cases b.list? key with
      | error e => exact ⟨rfl, h⟩
      | ok items? =>
          dsimp only
          split
          · exact ⟨rfl, h⟩
          · cases items? with
            | none => exact ⟨rfl, h⟩
            | some items => exact ⟨rfl, h.setItems _⟩
  | expire other seconds =>
      cases hkey
      show (a.expire now key seconds).1 = (b.expire now key seconds).1 ∧
        (a.expire now key seconds).2.SameAt key (b.expire now key seconds).2
      unfold expire
      rw [h.holds_eq]
      split
      · exact ⟨rfl, h⟩
      · split
        · exact ⟨rfl, h.drop⟩
        · cases Seconds.ofSeconds? (τ := τ) seconds with
          | none => exact ⟨rfl, h⟩
          | some duration => exact ⟨rfl, h.setDeadline _⟩

theorem SameAt.run (h : a.SameAt key b) (decodes : Bool) (now : τ) (command : Command) :
    (a.run decodes now command).2.SameAt key (b.run decodes now command).2 := by
  by_cases hkey : command.key? = some key
  · exact (h.run_of_key decodes now hkey).2
  · have ha := sameAt_run_of_ne a decodes now hkey
    have hb := sameAt_run_of_ne b decodes now hkey
    exact (ha.trans h).trans hb.symm

theorem SameAt.response_eq (h : a.SameAt key b) (decodes : Bool) (now : τ)
    (hqueue : command.OfQueue key) :
    (a.run decodes now command).1 = (b.run decodes now command).1 := by
  rcases hqueue.key? with hnone | hkey
  · cases command with
    | ping => rfl
    | _ => cases hnone
  · exact (h.run_of_key decodes now hkey).1

/-!
## Deadlines
-/

theorem SameAt.hasLapsed_eq (h : a.SameAt key b) (now : τ) :
    a.hasLapsed now key = b.hasLapsed now key := by
  unfold hasLapsed
  rw [h.deadlines]

theorem sameAt_purge_of_lapsed (h : keys.hasLapsed now key = true) :
    (keys.purge now).SameAt key {} := by
  have hkeep : (!keys.hasLapsed now key) = false := by rw [h]; rfl
  constructor
  · simp only [purge]
    rw [get?_filter_key (fun name => !keys.hasLapsed now name), hkeep]
    rfl
  · simp only [purge]
    rw [contains_filter, hkeep]
    rfl
  · simp only [purge]
    rw [get?_filter_key (fun name => !keys.hasLapsed now name), hkeep]
    rfl

theorem sameAt_purge_of_not_lapsed (h : keys.hasLapsed now key = false) :
    (keys.purge now).SameAt key keys := by
  have hkeep : (!keys.hasLapsed now key) = true := by rw [h]; rfl
  constructor
  · simp only [purge]
    rw [get?_filter_key (fun name => !keys.hasLapsed now name), hkeep, if_pos rfl]
  · simp only [purge]
    rw [contains_filter, hkeep, Bool.true_and]
  · simp only [purge]
    rw [get?_filter_key (fun name => !keys.hasLapsed now name), hkeep, if_pos rfl]

theorem SameAt.purge (h : a.SameAt key b) (now : τ) :
    (a.purge now).SameAt key (b.purge now) := by
  have hlapsed := h.hasLapsed_eq now
  cases hb : b.hasLapsed now key with
  | true =>
      rw [hb] at hlapsed
      exact (sameAt_purge_of_lapsed hlapsed).trans (sameAt_purge_of_lapsed hb).symm
  | false =>
      rw [hb] at hlapsed
      exact ((sameAt_purge_of_not_lapsed hlapsed).trans h).trans
        (sameAt_purge_of_not_lapsed hb).symm

theorem hasLapsed_later (honward : ∀ deadline : τ, deadline ≤ now → deadline ≤ later)
    (h : keys.hasLapsed now key = true) : keys.hasLapsed later key = true := by
  unfold hasLapsed at h ⊢
  cases hdeadline : keys.deadlines.get? key with
  | none =>
      rw [hdeadline] at h
      cases h
  | some deadline =>
      rw [hdeadline] at h
      exact decide_eq_true (honward deadline (of_decide_eq_true h))

theorem sameAt_purge_purge (keys : Keyspace τ) (key : String)
    (honward : ∀ deadline : τ, deadline ≤ now → deadline ≤ later) :
    ((keys.purge now).purge later).SameAt key (keys.purge later) := by
  cases h : keys.hasLapsed now key with
  | true =>
      have hnow : ((keys.purge now).purge later).SameAt key ((({} : Keyspace τ)).purge later) :=
        (sameAt_purge_of_lapsed h).purge later
      exact hnow.trans (sameAt_purge_of_lapsed (hasLapsed_later honward h)).symm
  | false => exact (sameAt_purge_of_not_lapsed h).purge later

end Keyspace

/-!
## Fates
-/

/-- What becomes of a command on its way: it is answered, it fails without effect, or it takes
effect and fails all the same. -/
inductive Fate (τ : Type) where
  | answered (decodes : Bool)
  | refused (e : Failure τ)
  | lost (e : Failure τ) (decodes : Bool)

namespace Fate

variable {τ : Type} [Seconds τ] {a b keys : Keyspace τ} {key : String} {command : Command}

def failure? : Fate τ → Option (Failure τ)
  | answered _ => none
  | refused e | lost e _ => some e

def took : Fate τ → Bool
  | answered _ | lost .. => true
  | refused _ => false

def reply (now : τ) (keys : Keyspace τ) (command : Command) :
    Fate τ → Except (Failure τ) command.Reply
  | answered decodes => (keys.run decodes now command).1.reply
  | refused e | lost e _ => .error e

def keep (now : τ) (keys : Keyspace τ) (command : Command) : Fate τ → Keyspace τ
  | answered decodes | lost _ decodes => (keys.run decodes now command).2
  | refused _ => keys

theorem executed {faults : Failure τ → Prop} (fate : Fate τ) (now : τ) (keys : Keyspace τ)
    (command : Command) (hfaults : ∀ e, fate.failure? = some e → faults e) :
    Keyspace.Executed faults keys command fate.took (fate.reply now keys command)
      (fate.keep now keys command) := by
  cases fate with
  | answered decodes => exact .answered decodes now
  | refused e => exact .refused (hfaults e rfl)
  | lost e decodes => exact .lost (hfaults e rfl) decodes now

theorem reply_eq (fate : Fate τ) (now : τ) (h : a.SameAt key b) (hqueue : command.OfQueue key) :
    fate.reply now a command = fate.reply now b command := by
  cases fate with
  | answered decodes => exact congrArg Response.reply (h.response_eq decodes now hqueue)
  | refused e => rfl
  | lost e decodes => rfl

theorem sameAt_keep (fate : Fate τ) (now : τ) (h : a.SameAt key b) (command : Command) :
    (fate.keep now a command).SameAt key (fate.keep now b command) := by
  cases fate with
  | answered decodes => exact h.run decodes now command
  | refused e => exact h
  | lost e decodes => exact h.run decodes now command

theorem sameAt_keep_of_ne (fate : Fate τ) (now : τ) (keys : Keyspace τ)
    (hkey : command.key? ≠ some key) : (fate.keep now keys command).SameAt key keys := by
  cases fate with
  | answered decodes => exact Keyspace.sameAt_run_of_ne keys decodes now hkey
  | refused e => rfl
  | lost e decodes => exact Keyspace.sameAt_run_of_ne keys decodes now hkey

end Fate
end Redis
end Turnstile
