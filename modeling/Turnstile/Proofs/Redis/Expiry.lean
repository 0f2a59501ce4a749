import Turnstile.Proofs.Redis.Items
import Turnstile.Redis.Queue

/-!
# Removals and renewals

What the removal of a head and the renewal of an expiry do to a key, by what is kept under it.  The
two commute, since a key that goes with its last item takes its deadline with it.

## Main statements

* `Keyspace.lpop_head` - the head is handed out and removed.
* `Keyspace.expire_setItems` - an expiry is renewed after a removal as it is before it.
* `Keyspace.expire_lpop` - the two commands commute, whatever is kept under the key.
-/

namespace Turnstile

theorem Table.drop_put {β : Type} (table : Table β) (name : String) (value : β) :
    (table.put name value).drop name = table.drop name := by
  induction table with
  | nil => simp [put, drop]
  | cons pair rest ih =>
      rcases pair with ⟨first, old⟩
      by_cases hname : first = name
      · simp [put, drop, hname]
      · simp [put, drop, hname, ih]

namespace Redis
namespace Keyspace

variable {τ : Type} {keys : Keyspace τ} {key : String} {items : List ByteArray}

/-!
## What a key holds
-/

theorem holds_of_list?_some (h : keys.list? key = .ok (some items)) : keys.holds key = true := by
  unfold list? at h
  unfold holds
  split at h
  · cases h
  · cases h' : keys.lists.get? key with
    | none =>
        rw [h'] at h
        cases h
    | some items' => simp

theorem holds_of_list?_none (h : keys.list? key = .ok none) : keys.holds key = false := by
  unfold list? at h
  unfold holds
  split at h
  · cases h
  · rename_i hothers
    cases h' : keys.lists.get? key with
    | none => simpa using hothers
    | some items' =>
        rw [h'] at h
        cases h

theorem holds_of_list?_error {e : ClientError} (h : keys.list? key = .error e) :
    keys.holds key = true := by
  unfold list? at h
  unfold holds
  split at h
  · rename_i hothers
    rw [hothers, Bool.true_or]
  · cases h

theorem not_mem_others_of_list?_ok {items? : Option (List ByteArray)}
    (h : keys.list? key = .ok items?) : key ∉ keys.others := by
  unfold list? at h
  split at h
  · cases h
  · rename_i hothers
    simpa using hothers

/-!
## Removals
-/

theorem lpop_of_none (h : keys.list? key = .ok none) (decodes : Bool) :
    keys.lpop decodes key 1 = (.read (.ok none), keys) := by
  unfold lpop
  rw [h]
  rfl

theorem lpop_of_error {e : ClientError} (h : keys.list? key = .error e) (decodes : Bool) :
    keys.lpop decodes key 1 = (.refuse e, keys) := by
  unfold lpop
  rw [h]

theorem lpop_of_some (h : keys.list? key = .ok (some items)) (decodes : Bool) :
    (keys.lpop decodes key 1).2 = keys.setItems key (items.drop 1) := by
  unfold lpop
  rw [h]
  rfl

theorem lpop_decodes (decodes : Bool) :
    (keys.lpop decodes key 1).2 = (keys.lpop false key 1).2 := by
  cases h : keys.list? key with
  | error e => rw [lpop_of_error h, lpop_of_error h]
  | ok items? =>
      cases items? with
      | none => rw [lpop_of_none h, lpop_of_none h]
      | some items => rw [lpop_of_some h, lpop_of_some h]

theorem lpop_head {head : String} {rest : List String}
    (h : keys.list? key = .ok (some ((head :: rest).map String.toUTF8))) (decodes : Bool) :
    (keys.lpop decodes key 1).2 = keys.setItems key (rest.map String.toUTF8) ∧
      ∃ popped, (keys.lpop decodes key 1).1.reply = .ok (some popped) ∧
        (Queue.decodeItems popped : Except (Failure τ) (List String)) = .ok [head] := by
  have hdecode : (Item.bytes head.toUTF8).decode? = some head := Item.decode?_bytes_toUTF8 head
  unfold lpop
  rw [h]
  cases decodes with
  | false =>
      constructor
      · rfl
      · exists [.bytes head.toUTF8]
        constructor
        · rfl
        · simp only [Queue.decodeItems, hdecode, Except.map]
  | true =>
      have hread : String.fromUTF8? head.toUTF8 = some head := hdecode
      have hhanded : handOut true (((head :: rest).map String.toUTF8).take 1) =
          some [.text head] := by
        simp only [handOut, if_true, List.map_cons, List.take_succ_cons, List.take_zero,
          List.mapM_cons, List.mapM_nil, hread]
        rfl
      constructor
      · rfl
      · exists [.text head]
        constructor
        · simp only [Int.toNat_one]
          rw [if_neg (by decide), hhanded]
          rfl
        · rfl

/-!
## Renewals
-/

variable [Seconds τ] {now duration : τ} {seconds : Int}

theorem expire_of_holds (hholds : keys.holds key = true) (hseconds : 1 ≤ seconds)
    (hcounts : Seconds.ofSeconds? seconds = some duration) :
    keys.expire now key seconds = (.read (.ok true), keys.setDeadline key (now + duration)) := by
  unfold expire
  rw [hholds, hcounts, if_neg (by decide), if_neg (by omega)]

theorem expire_of_not_holds (hholds : keys.holds key = false) :
    keys.expire now key seconds = (.read (.ok false), keys) := by
  unfold expire
  rw [hholds, if_pos (by decide)]

omit [Seconds τ] in
theorem holds_drop_self (hlist : key ∉ keys.others) : (keys.drop key).holds key = false := by
  simp [holds, drop, Table.get?_drop, hlist]

omit [Seconds τ] in
theorem drop_setDeadline (deadline : τ) : (keys.setDeadline key deadline).drop key = keys.drop key := by
  unfold drop setDeadline
  rw [Table.drop_put]

/-- An expiry that is renewed after the items were replaced is renewed as before, and it goes with
the key if there are no items. -/
theorem expire_setItems (hlist : key ∉ keys.others) (hseconds : 1 ≤ seconds)
    (hcounts : Seconds.ofSeconds? seconds = some duration) :
    ((keys.setItems key items).expire now key seconds).2 =
        (keys.setDeadline key (now + duration)).setItems key items ∧
      ∃ held, ((keys.setItems key items).expire now key seconds).1.reply = .ok held := by
  cases items with
  | nil =>
      have hgone : (keys.drop key).expire now key seconds = (.read (.ok false), keys.drop key) :=
        expire_of_not_holds (holds_drop_self hlist)
      constructor
      · show ((keys.drop key).expire now key seconds).2 =
          (keys.setDeadline key (now + duration)).drop key
        rw [hgone, drop_setDeadline]
      · exists false
        show ((keys.drop key).expire now key seconds).1.reply = _
        rw [hgone]
        rfl
  | cons head rest =>
      have hholds : (keys.setItems key (head :: rest)).holds key = true := by
        simp [holds, setItems, Table.get?_put]
      rw [expire_of_holds hholds hseconds hcounts]
      exact ⟨rfl, true, rfl⟩

theorem expire_of_uncounted (hseconds : 1 ≤ seconds)
    (hcounts : Seconds.ofSeconds? (τ := τ) seconds = none) : (keys.expire now key seconds).2 = keys := by
  unfold expire
  rw [hcounts, if_neg (show ¬ seconds ≤ 0 by omega)]
  split
  · rfl
  · rfl

/-- A removal and a renewal leave the same keys in either order. -/
theorem expire_lpop (keys : Keyspace τ) (key : String) (now : τ) (hseconds : 1 ≤ seconds) :
    ((keys.lpop false key 1).2.expire now key seconds).2 =
      ((keys.expire now key seconds).2.lpop false key 1).2 := by
  cases hlist : keys.list? key with
  | error e =>
      rw [lpop_of_error hlist]
      cases hcounts : Seconds.ofSeconds? (τ := τ) seconds with
      | none => rw [expire_of_uncounted hseconds hcounts, lpop_of_error hlist]
      | some duration =>
          rw [expire_of_holds (holds_of_list?_error hlist) hseconds hcounts]
          rw [lpop_of_error (show (keys.setDeadline key (now + duration)).list? key = _ from hlist)]
  | ok items? =>
      cases items? with
      | none =>
          rw [lpop_of_none hlist, expire_of_not_holds (holds_of_list?_none hlist),
            lpop_of_none hlist]
      | some items =>
          rw [lpop_of_some hlist]
          cases hcounts : Seconds.ofSeconds? (τ := τ) seconds with
          | none =>
              rw [expire_of_uncounted hseconds hcounts, expire_of_uncounted hseconds hcounts,
                lpop_of_some hlist]
          | some duration =>
              have hrenewed : ((keys.setItems key (items.drop 1)).expire now key seconds).2 = _ :=
                (expire_setItems (not_mem_others_of_list?_ok hlist) hseconds hcounts).1
              rw [expire_of_holds (holds_of_list?_some hlist) hseconds hcounts, hrenewed]
              rw [lpop_of_some (show (keys.setDeadline key (now + duration)).list? key = _ from hlist)]

end Keyspace
end Redis
end Turnstile
