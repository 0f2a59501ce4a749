import Turnstile.Proofs.Redis.Items

/-!
# What others do to a list

A key of a server can be used by anybody.  Others append items, remove heads, set deadlines and
delete keys, and keys go when their deadline has come.  Whatever they do, the list under a key
changes in two ways only: an item is appended, or some items are removed from its front.

## Main statements

* `Keyspace.Disturbed.items` - what becomes of the list under a key.
-/

namespace Turnstile
namespace Redis
namespace Keyspace

variable {τ : Type} {keys keys' : Keyspace τ} {key other : String}

/-!
## The lists under other keys
-/

@[simp]
theorem items_drop_self (keys : Keyspace τ) (key : String) : (keys.drop key).items key = [] := by
  simp only [items, drop, Table.get?_drop, if_true, Option.getD_none]

theorem items_drop_of_ne (keys : Keyspace τ) (hne : other ≠ key) :
    (keys.drop other).items key = keys.items key := by
  simp only [items, drop, Table.get?_drop, if_neg hne]

theorem items_setItems_of_ne (keys : Keyspace τ) (hne : other ≠ key) (items : List ByteArray) :
    (keys.setItems other items).items key = keys.items key := by
  unfold setItems
  split
  · exact items_drop_of_ne keys hne
  · simp only [Keyspace.items, Table.get?_put, if_neg hne]

theorem get?_filter_key {β : Type} (keep : String → Bool) (table : Table β) (key : String) :
    Table.get? (table.filter fun pair => keep pair.1) key =
      if keep key then table.get? key else none := by
  induction table with
  | nil => simp [Table.get?]
  | cons pair rest ih =>
      rcases pair with ⟨name, value⟩
      by_cases hname : name = key
      · subst hname
        by_cases hkeep : keep name
        · simp [Table.get?, hkeep]
        · simp [hkeep, ih]
      · by_cases hkeep : keep name
        · simp [Table.get?, hkeep, hname, ih]
        · simp [Table.get?, hkeep, hname, ih]

theorem items_purge [Seconds τ] (keys : Keyspace τ) (now : τ) (key : String) :
    (keys.purge now).items key = if keys.hasLapsed now key then [] else keys.items key := by
  simp only [items, purge]
  rw [get?_filter_key (fun name => !keys.hasLapsed now name)]
  cases keys.hasLapsed now key with
  | true => rfl
  | false => rfl

/-!
## Disturbances
-/

variable [Seconds τ]

/-- Something that others do to the keys of a server.  They do not append the identity `id` to the
list under `key`. -/
inductive Disturbed (key id : String) (keys : Keyspace τ) : Keyspace τ → Prop where
  | command (decodes : Bool) (time : τ) {command : Command} (apart : command ≠ .rpush key id) :
      Disturbed key id keys (keys.run decodes time command).2
  /-- An item need not be a text. -/
  | appended (other : String) (item : ByteArray) (apart : other = key → item ≠ id.toUTF8) :
      Disturbed key id keys (keys.setItems other (keys.items other ++ [item]))
  | deleted (other : String) : Disturbed key id keys (keys.drop other)
  | lapsed (time : τ) : Disturbed key id keys (keys.purge time)

/-- An item other than `item` is appended to a list, or some items are removed from its front. -/
inductive Disturbs (item : ByteArray) (line : List ByteArray) : List ByteArray → Prop where
  | appended (other : ByteArray) (apart : other ≠ item) : Disturbs item line (line ++ [other])
  | removed (count : Nat) : Disturbs item line (line.drop count)

theorem Disturbs.same (item : ByteArray) (line : List ByteArray) : Disturbs item line line :=
  .removed 0

theorem Disturbs.cleared (item : ByteArray) (line : List ByteArray) : Disturbs item line [] := by
  have hremoved : Disturbs item line (line.drop line.length) := .removed _
  rw [List.drop_length] at hremoved
  exact hremoved

omit [Seconds τ] in
theorem items_of_list? {items? : Option (List ByteArray)} (h : keys.list? key = .ok items?) :
    items?.getD [] = keys.items key := by
  unfold list? at h
  split at h
  · cases h
  · cases h
    rfl

omit [Seconds τ] in
theorem disturbs_setItems {item : ByteArray} {line : List ByteArray}
    (h : other = key → Disturbs item (keys.items key) line) :
    Disturbs item (keys.items key) ((keys.setItems other line).items key) := by
  by_cases hother : other = key
  · subst hother
    rw [items_setItems]
    exact h rfl
  · rw [items_setItems_of_ne keys hother]
    exact .same _ _

omit [Seconds τ] in
theorem disturbs_drop (item : ByteArray) :
    Disturbs item (keys.items key) ((keys.drop other).items key) := by
  by_cases hother : other = key
  · subst hother
    rw [items_drop_self]
    exact .cleared _ _
  · rw [items_drop_of_ne keys hother]
    exact .same _ _

theorem disturbs_run (decodes : Bool) (time : τ) {command : Command} {id : String}
    (apart : command ≠ .rpush key id) :
    Disturbs id.toUTF8 (keys.items key) ((keys.run decodes time command).2.items key) := by
  cases command with
  | ping => exact .same _ _
  | lpos other id' => exact .same _ _
  | llen other => exact .same _ _
  | rpush other id' =>
      show Disturbs _ _ ((keys.rpush other id').2.items key)
      unfold rpush
      split
      · exact .same _ _
      · rename_i items? hitems
        dsimp only
        rw [items_of_list? hitems]
        apply disturbs_setItems
        intro hother
        rw [hother]
        apply Disturbs.appended
        intro heq
        have hid : id' = id := String.toByteArray_inj.mp heq
        exact apart (by rw [hother, hid])
  | lpop other count =>
      show Disturbs _ _ ((keys.lpop decodes other count).2.items key)
      unfold lpop
      split
      · exact .same _ _
      · rename_i items? hitems
        split
        · exact .same _ _
        · split
          · exact .same _ _
          · rename_i items
            apply disturbs_setItems
            intro hother
            rw [← hother, ← items_of_list? hitems]
            exact .removed _
  | expire other seconds =>
      show Disturbs _ _ ((keys.expire time other seconds).2.items key)
      unfold expire
      split
      · exact .same _ _
      · split
        · exact disturbs_drop _
        · split
          · exact .same _ _
          · exact .same _ _

/-- Whatever others do, an item is appended to a list or some items are removed from its front. -/
theorem Disturbed.items {id : String} (h : Disturbed key id keys keys') :
    Disturbs id.toUTF8 (keys.items key) (keys'.items key) := by
  cases h with
  | command decodes time apart => exact disturbs_run decodes time apart
  | appended other item apart =>
      apply disturbs_setItems
      intro hother
      rw [hother]
      exact .appended item (apart hother)
  | deleted other => exact disturbs_drop _
  | lapsed time =>
      rw [items_purge]
      split
      · exact .cleared _ _
      · exact .same _ _

end Keyspace

end Redis
end Turnstile
