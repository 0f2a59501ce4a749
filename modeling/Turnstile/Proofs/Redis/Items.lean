import Turnstile.Redis.Keyspace

/-!
# The list under a key

What the commands of a queue do to the list under its key.  A key that holds a list or nothing
has a list of items either way, and each command says what becomes of these items.

## Main statements

* `Keyspace.Lists.rpush`, `Keyspace.Lists.lpop` - an item is appended, and the head is removed.
* `Keyspace.Lists.lpos_reply` - the rank of an item is its first index.
-/

namespace Turnstile

instance lawfulByteArray : LawfulBEq ByteArray where
  eq_of_beq {a b} h := by
    cases a with
    | mk a =>
        cases b with
        | mk b => exact congrArg ByteArray.mk (eq_of_beq (show (a == b) = true from h))
  rfl {a} := by
    cases a with
    | mk a => exact beq_self_eq_true a

theorem idxOf?_map_toUTF8 (line : List String) (id : String) :
    (line.map String.toUTF8).idxOf? id.toUTF8 = line.idxOf? id := by
  induction line with
  | nil => rfl
  | cons head rest ih =>
      have hhead : (head.toUTF8 == id.toUTF8) = (head == id) := by
        rw [Bool.eq_iff_iff, beq_iff_eq, beq_iff_eq]
        exact String.toByteArray_inj
      rw [List.map_cons, List.idxOf?_cons, List.idxOf?_cons, hhead, ih]

namespace Redis
namespace Keyspace

variable {τ : Type} {keys : Keyspace τ} {key : String} {line : List ByteArray}

/-- A key holds a list of items, or nothing in place of the empty list. -/
structure Lists (keys : Keyspace τ) (key : String) (line : List ByteArray) : Prop where
  isList : key ∉ keys.others
  items : keys.items key = line

@[simp]
theorem items_setItems (items : List ByteArray) : (keys.setItems key items).items key = items := by
  unfold setItems
  split
  · rename_i hempty
    simp only [Keyspace.items, drop, Table.get?_drop, if_true, Option.getD_none]
    exact (List.isEmpty_iff.mp hempty).symm
  · simp only [Keyspace.items, Table.get?_put, if_true, Option.getD_some]

theorem not_mem_others_setItems (hkey : key ∉ keys.others) (items : List ByteArray) :
    key ∉ (keys.setItems key items).others := by
  unfold setItems
  split
  · intro hmem
    exact hkey (List.mem_filter.mp hmem).1
  · exact hkey

namespace Lists

theorem list? (h : keys.Lists key line) : keys.list? key = .ok (keys.lists.get? key) := by
  simp [Keyspace.list?, h.isList]

theorem getD (h : keys.Lists key line) : (keys.lists.get? key).getD [] = line :=
  h.items

theorem setItems (h : keys.Lists key line) (items : List ByteArray) :
    (keys.setItems key items).Lists key items :=
  ⟨not_mem_others_setItems h.isList items, items_setItems items⟩

theorem rpush (h : keys.Lists key line) (id : String) :
    (keys.rpush key id).2.Lists key (line ++ [id.toUTF8]) := by
  simp only [Keyspace.rpush, h.list?, h.getD]
  exact h.setItems _

theorem rpush_reply (h : keys.Lists key line) (id : String) :
    (keys.rpush key id).1.reply = .ok (line.length + 1) := by
  simp only [Keyspace.rpush, h.list?, h.getD, Response.reply, List.length_append,
    List.length_singleton]

theorem lpos_reply (h : keys.Lists key line) (id : String) :
    (keys.lpos key id).reply = .ok (line.idxOf? id.toUTF8) := by
  simp only [Keyspace.lpos, h.list?, h.getD, Response.reply]

theorem llen_reply (h : keys.Lists key line) : (keys.llen key).reply = .ok line.length := by
  simp only [Keyspace.llen, h.list?, h.getD, Response.reply]

theorem lpop (h : keys.Lists key line) (decodes : Bool) :
    (keys.lpop decodes key 1).2.Lists key line.tail := by
  have hline := h.getD
  simp only [Keyspace.lpop, h.list?]
  rw [if_neg (by decide)]
  cases hget : keys.lists.get? key with
  | none =>
      rw [hget] at hline
      cases hline
      exact h
  | some items =>
      rw [hget] at hline
      cases hline
      rw [← List.drop_one]
      exact h.setItems _

theorem expire [Seconds τ] (h : keys.Lists key line) (now : τ) {seconds : Int}
    (hseconds : 1 ≤ seconds) : (keys.expire now key seconds).2.Lists key line := by
  unfold Keyspace.expire
  split
  · exact h
  · rw [if_neg (by omega)]
    split
    · exact h
    · exact ⟨h.isList, h.items⟩

end Lists
end Keyspace
end Redis
end Turnstile
