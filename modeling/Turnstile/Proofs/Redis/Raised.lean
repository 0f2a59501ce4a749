import Turnstile.Number.Binary
import Turnstile.Proofs.Redis.Disturbance
import Turnstile.Proofs.Redis.Usage

/-!
# Uses that fail

A use of a queue can fail because its command does not reach the server, because the server refuses
it, or because nobody can read what comes back.  In all cases but one the keys are as they were.
The exception is a removal of which some item is no text: the items are gone when that is found out,
and none of them is handed out.

Keys that have lapsed by the time of the use are gone in any case.

## Main definitions

* `Keyspace.Unreadable` - a removal of which some item is no text.
* `Keyspace.Removes` - what comes of a removal.

## Main statements

* `Keyspace.keys_of_error` - uses that fail and change nothing.
* `raised_changes_iff` - the one case in which a use fails and yet changes the keys.
-/

namespace Turnstile
namespace Redis

open Rehearsal

variable {τ : Type} [Seconds τ] {keys : Keyspace τ} {key : String} {visit : Visit τ}
  {server : Server τ}

/-!
## Commands that are refused
-/

namespace Keyspace

theorem run_of_error {use : Use} {decodes : Bool} {time : τ} {e : Failure τ}
    (hnoPop : ∀ count, use ≠ .pop count)
    (h : (keys.run decodes time (use.command key)).1.reply = .error e) :
    (keys.run decodes time (use.command key)).2 = keys := by
  revert h
  cases use with
  | push id =>
      show (keys.rpush key id).1.reply = .error e → (keys.rpush key id).2 = keys
      unfold rpush
      split
      · exact fun _ => rfl
      · nofun
  | position id => exact fun _ => rfl
  | pop count => exact absurd rfl (hnoPop count)
  | expire seconds =>
      show (keys.expire time key seconds).1.reply = .error e → (keys.expire time key seconds).2 = keys
      unfold expire
      split
      · nofun
      · split
        · nofun
        · split
          · exact fun _ => rfl
          · nofun
  | length => exact fun _ => rfl

omit [Seconds τ] in
theorem isOk_reading {use : Use} (hnoPop : ∀ count, use ≠ .pop count)
    (reply : (use.command key).Reply) :
    ∃ outcome, (use.reading reply : Except (Failure τ) Outcome) = .ok outcome := by
  cases use with
  | pop count => exact absurd rfl (hnoPop count)
  | _ => exact ⟨_, rfl⟩

/-!
### Removals
-/

def Unreadable (keys : Keyspace τ) (key : String) : Use → Prop
  | .pop count => 0 ≤ count ∧ ∃ items, keys.list? key = .ok (some items) ∧
      ∃ item ∈ items.take count.toNat, String.fromUTF8? item = none
  | _ => False

inductive Removes (keys : Keyspace τ) (key : String) (count : Int) :
    Except (Failure τ) Outcome → Keyspace τ → Prop where
  | noList {refusal : ClientError} (e : Failure τ) (hlist : keys.list? key = .error refusal) :
      Removes keys key count (.error e) keys
  | negative (e : Failure τ) (hcount : count < 0) : Removes keys key count (.error e) keys
  | absent (hlist : keys.list? key = .ok none) :
      Removes keys key count (.ok (.removed [])) keys
  | taken {items : List ByteArray} (hlist : keys.list? key = .ok (some items))
      (hcount : 0 ≤ count) :
      Removes keys key count (removal (items.take count.toNat))
        (keys.setItems key (items.drop count.toNat))

/-- A removal that fails has taken away items, and nobody has them. -/
structure Lost (keys : Keyspace τ) (key : String) (count : Int) (keys' : Keyspace τ) : Prop where
  removed : keys' = keys.setItems key ((keys.items key).drop count.toNat)
  shorter : keys'.items key ≠ keys.items key

omit [Seconds τ] in
theorem Lost.left {keys' : Keyspace τ} {count : Int} (h : keys.Lost key count keys') :
    keys'.items key = (keys.items key).drop count.toNat := by
  rw [h.removed, items_setItems]

section Removals

variable {count : Int}

omit [Seconds τ] in
theorem removes_lpop {report : Failure τ → Failure τ}
    (hreport : report .undecodable = .undecodable) (decodes : Bool) :
    keys.Removes key count
      (((keys.lpop decodes key count).1.reply.mapError report).bind (@Use.reading τ key (.pop count)))
      (keys.lpop decodes key count).2 := by
  cases hlist : keys.list? key with
  | error refusal =>
      unfold lpop
      rw [hlist]
      exact .noList _ hlist
  | ok items? =>
      by_cases hcount : count < 0
      · unfold lpop
        rw [hlist]
        dsimp only
        rw [if_pos hcount]
        exact .negative _ hcount
      · rw [reading_lpop hlist (Int.not_lt.mp hcount) hreport]
        unfold lpop
        rw [hlist]
        dsimp only
        rw [if_neg hcount]
        cases items? with
        | none =>
            rw [Option.getD_none, List.take_nil]
            exact .absent hlist
        | some items => exact .taken hlist (Int.not_lt.mp hcount)

variable {keys' : Keyspace τ} {ended : Except (Failure τ) Outcome}

namespace Removes

omit [Seconds τ] in
/-- A removal that fails has no effect, unless one of the items is no text. -/
theorem unchanged {e : Failure τ} (h : keys.Removes key count ended keys')
    (hreadable : ¬ keys.Unreadable key (.pop count)) (hended : ended = .error e) :
    keys' = keys := by
  cases h with
  | taken hlist hcount =>
      rename_i items
      unfold removal at hended
      cases htexts : texts? (items.take count.toNat) with
      | some ids =>
          rw [htexts] at hended
          cases hended
      | none => exact absurd ⟨hcount, items, hlist, texts?_eq_none.mp htexts⟩ hreadable
  | _ => rfl

omit [Seconds τ] in
theorem lost (h : keys.Removes key count ended keys') (hunread : keys.Unreadable key (.pop count)) :
    ended = .error .undecodable ∧ keys.Lost key count keys' := by
  rcases hunread with ⟨hcount, items, hlist, item, hmem, hitem⟩
  cases h with
  | noList e hnoList => cases hnoList.symm.trans hlist
  | negative e hnegative => exact absurd hcount (Int.not_le.mpr hnegative)
  | absent habsent => cases habsent.symm.trans hlist
  | taken htaken _ =>
      cases htaken.symm.trans hlist
      have hitems : keys.items key = items := (items_of_list? hlist).symm
      refine ⟨?_, ⟨by rw [hitems], ?_⟩⟩
      · unfold removal
        rw [texts?_eq_none.mpr ⟨item, hmem, hitem⟩]
      · intro hsame
        -- An item that is no text was removed, so that the list is shorter than it was.
        rw [items_setItems, hitems] at hsame
        have hlength := congrArg List.length hsame
        have hpos : 0 < (items.take count.toNat).length := List.length_pos_of_mem hmem
        rw [List.length_drop] at hlength
        rw [List.length_take] at hpos
        omega

omit [Seconds τ] in
theorem items {ids : List String} (h : keys.Removes key count ended keys')
    (hended : ended = .ok (.removed ids)) :
    keys.items key = ids.map String.toUTF8 ++ keys'.items key := by
  cases h with
  | absent hlist =>
      cases hended
      rfl
  | taken hlist hcount =>
      rename_i items
      unfold removal at hended
      cases htexts : texts? (items.take count.toNat) with
      | some ids' =>
          rw [htexts] at hended
          cases hended
          rw [items_setItems, ← texts?_eq_some.mp htexts, List.take_append_drop]
          exact (items_of_list? hlist).symm
      | none =>
          rw [htexts] at hended
          cases hended
  | _ => cases hended

end Removes

end Removals

/-- A use that fails leaves the keys as they are, unless it has removed an item that is no text. -/
theorem keys_of_error {use : Use} {decodes : Bool} {time : τ} {report : Failure τ → Failure τ}
    {e : Failure τ} (hreadable : ¬ keys.Unreadable key use)
    (hreport : report .undecodable = .undecodable)
    (h : ((keys.run decodes time (use.command key)).1.reply.mapError report).bind use.reading =
      .error e) : (keys.run decodes time (use.command key)).2 = keys := by
  by_cases hpop : ∃ count, use = .pop count
  · rcases hpop with ⟨count, rfl⟩
    exact (removes_lpop hreport decodes).unchanged hreadable h
  · have hnoPop : ∀ count, use ≠ .pop count := fun count heq => hpop ⟨count, heq⟩
    cases hreply : (keys.run decodes time (use.command key)).1.reply with
    | error e' => exact run_of_error hnoPop hreply
    | ok reply =>
        rcases @isOk_reading τ key use hnoPop reply with ⟨outcome, houtcome⟩
        rw [hreply] at h
        cases houtcome.symm.trans h

end Keyspace

/-!
## Commands that do not arrive
-/

/-- Every fault that is planned for a command strikes before the command has its effect. -/
def Early (server : Server τ) : Prop :=
  ∀ fault ∈ server.faults, fault.afterEffect = false

omit [Seconds τ] in
theorem reply_ofFailure {α : Type} (failure : Failure τ) :
    ∃ e, (Response.ofFailure failure : Response τ α).reply = .error e := by
  unfold Response.ofFailure
  split
  · exact ⟨_, rfl⟩
  · exact ⟨_, rfl⟩

theorem response_of_not_arrives (hearly : Early server) (h : ¬ visit.Arrives server) :
    (∃ e, (visit.response server).1.reply = .error e) ∧
      (visit.response server).2.keys = server.keys.purge visit.time := by
  unfold Visit.response Server.run Visit.meets
  dsimp only
  split
  · rename_i fault hfault
    have hbefore : fault.afterEffect = false := hearly fault (List.mem_of_find?_eq_some hfault)
    rw [hbefore]
    exact ⟨reply_ofFailure fault.failure, rfl⟩
  · rename_i hunharmed
    split
    · exact ⟨⟨_, rfl⟩, rfl⟩
    · rename_i hup
      exact absurd ⟨hunharmed, Bool.eq_false_iff.mpr hup⟩ h

/-!
## Failures that change the keys
-/

/-- A use comes to its end.  It fails and yet changes the keys in one case only: its command
arrives, it is a removal, and one of the items that it removes is no text.  Then the items are gone.
A removal that does not fail hands out everything that it removes, in order. -/
theorem raised_changes_iff (hearly : Early server) (visit : Visit τ) :
    ∃ ended server', visit.attended server = some (ended, server') ∧
      ((∃ e, ended = .error e ∧ server'.keys ≠ server.keys.purge visit.time) ↔
        visit.Arrives server ∧
          (server.keys.purge visit.time).Unreadable visit.queue.key visit.use) ∧
      ∀ count, visit.use = .pop count →
        (∀ e, ended = .error e → server'.keys ≠ server.keys.purge visit.time →
          e = .undecodable ∧
            (server.keys.purge visit.time).Lost visit.queue.key count server'.keys) ∧
        (∀ ids, ended = .ok (.removed ids) →
          (server.keys.purge visit.time).items visit.queue.key =
            ids.map String.toUTF8 ++ server'.keys.items visit.queue.key) := by
  refine ⟨_, _, visit.attended_eq server, ?_⟩
  by_cases harrives : visit.Arrives server
  case neg =>
    rcases response_of_not_arrives hearly harrives with ⟨⟨e, hfailed⟩, hkeys⟩
    rw [hfailed]
    refine ⟨⟨fun h => ?_, fun h => absurd h.1 harrives⟩, fun count _ => ⟨?_, nofun⟩⟩
    · rcases h with ⟨_, _, hchanged⟩
      exact absurd hkeys hchanged
    · exact fun _ _ hchanged => absurd hkeys hchanged
  case pos =>
    rcases harrives.response with ⟨hresponse, hkeys⟩
    rcases visit with ⟨queue, decodes, time, use⟩
    have hreport : Visit.report ⟨queue, decodes, time, use⟩ .undecodable = .undecodable := rfl
    rw [hresponse, hkeys]
    by_cases hunread : (server.keys.purge time).Unreadable queue.key use
    · cases use with
      | pop count =>
          rcases (Keyspace.removes_lpop hreport decodes).lost hunread with ⟨hfailed, hlost⟩
          refine ⟨⟨fun _ => ⟨harrives, hunread⟩, fun _ => ⟨_, hfailed, ?_⟩⟩, ?_⟩
          · exact fun hsame => hlost.shorter (congrArg (Keyspace.items · queue.key) hsame)
          · intro count' hcount
            cases hcount
            refine ⟨fun e he _ => ⟨?_, hlost⟩, fun ids hids => ?_⟩
            · cases hfailed.symm.trans he
              rfl
            · cases hfailed.symm.trans hids
      | _ => exact absurd hunread id
    · refine ⟨⟨fun h => ?_, fun h => absurd h.2 hunread⟩, fun count hcount => ⟨?_, ?_⟩⟩
      · rcases h with ⟨e, hfailed, hchanged⟩
        exact absurd (Keyspace.keys_of_error hunread hreport hfailed) hchanged
      · intro e hfailed hchanged
        exact absurd (Keyspace.keys_of_error hunread hreport hfailed) hchanged
      · intro ids hids
        cases hcount
        exact (Keyspace.removes_lpop hreport decodes).items hids

def mixedQueue : Server Float where
  keys := { lists := [("q", ["a".toUTF8, ⟨#[0xff]⟩, "b".toUTF8])] }

def takeTwo : Visit Float :=
  ⟨⟨⟨0, defaultEndpoint, {}⟩, "q", false⟩, false, 1, .pop 2⟩

theorem raised_changes_iff_of_mixedQueue : Early mixedQueue ∧
    ∃ server', takeTwo.attended mixedQueue = some (.error .undecodable, server') ∧
      server'.keys.items "q" = ["b".toUTF8] := by
  have hearly : Early mixedQueue := fun fault hmem => absurd hmem List.not_mem_nil
  have hitems : (mixedQueue.keys.purge takeTwo.time).items "q" =
      ["a".toUTF8, ⟨#[0xff]⟩, "b".toUTF8] := rfl
  have hunread : (mixedQueue.keys.purge takeTwo.time).Unreadable "q" (.pop 2) :=
    ⟨by decide, _, rfl, ⟨#[0xff]⟩, List.mem_cons_of_mem _ List.mem_cons_self, by decide⟩
  rcases raised_changes_iff hearly takeTwo with ⟨ended, server', hattended, hiff, hpop⟩
  rcases hiff.mpr ⟨⟨rfl, rfl⟩, hunread⟩ with ⟨e, rfl, hchanged⟩
  rcases (hpop 2 rfl).1 e rfl hchanged with ⟨rfl, hlost⟩
  refine ⟨hearly, server', hattended, hlost.left.trans ?_⟩
  show ((mixedQueue.keys.purge takeTwo.time).items "q").drop 2 = _
  rw [hitems]
  rfl

end Redis
end Turnstile
