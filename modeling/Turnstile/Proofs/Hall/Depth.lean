import Turnstile.Proofs.Hall.Rejection
import Turnstile.Proofs.Hall.Schedule

/-!
# The depth of a queue

When all instances of a queue tolerate the same largest position, its list stays short.  A request
for a slot makes its entry first and is rejected afterwards, so the list can be longer than what is
tolerated, but only by the entries of those who were rejected and have not removed a head yet.

Entries are made when they are asked for, and whoever asks is told.  Otherwise anything may go
wrong: commands may fail with or without effect, and uses may be interrupted or run out of time.

## Main statements

* `Hall.depth_le` - the length of the list, in every state of every run, and that nobody who is
  counted as rejected gets a slot.
-/

namespace Turnstile

open Redis

/-!
## What is owed for
-/

section Dispatch

variable {τ : Type} {sent : List (Dispatch τ)}

/-- Whether a use that has sent some commands made an entry too far back, and has not removed a
head. -/
def owes (tooFar : Int → Bool) (sent : List (Dispatch τ)) : Bool :=
  outside tooFar sent && !sent.any Dispatch.pops

/-- The commands that were sent neither made an entry nor removed a head, as far as was told. -/
def Idle (sent : List (Dispatch τ)) : Prop :=
  ∀ dispatch ∈ sent, dispatch.position? = none ∧ dispatch.pops = false

namespace Idle

theorem singleton {dispatch : Dispatch τ} (hposition : dispatch.position? = none)
    (hpops : dispatch.pops = false) : Idle [dispatch] := by
  intro other hother
  rw [List.mem_singleton.mp hother]
  exact ⟨hposition, hpops⟩

theorem append {earlier : List (Dispatch τ)} (hearlier : Idle earlier) (hsent : Idle sent) :
    Idle (earlier ++ sent) := by
  intro dispatch hdispatch
  rcases List.mem_append.mp hdispatch with hmem | hmem
  · exact hearlier dispatch hmem
  · exact hsent dispatch hmem

theorem outside_eq (h : Idle sent) (tooFar : Int → Bool) : outside tooFar sent = false := by
  unfold outside
  rw [List.any_eq_false]
  intro dispatch hdispatch
  rw [(h dispatch hdispatch).1]
  nofun

theorem any_pops (h : Idle sent) : sent.any Dispatch.pops = false := by
  rw [List.any_eq_false]
  intro dispatch hdispatch
  rw [(h dispatch hdispatch).2]
  nofun

theorem owes_eq (h : Idle sent) (tooFar : Int → Bool) : owes tooFar sent = false := by
  unfold owes
  rw [h.outside_eq, Bool.false_and]

theorem owes_append (h : Idle sent) (tooFar : Int → Bool) (earlier : List (Dispatch τ)) :
    owes tooFar (earlier ++ sent) = owes tooFar earlier := by
  simp only [owes, outside_append, List.any_append, h.outside_eq, h.any_pops, Bool.or_false]

theorem owes_entry {tooFar : Int → Bool} {dispatch : Dispatch τ} {position : Int} (h : Idle sent)
    (hposition : dispatch.position? = some position) (hpops : dispatch.pops = false) :
    owes tooFar (sent ++ [dispatch]) = tooFar position := by
  have houtside : outside tooFar [dispatch] = tooFar position := by
    simp only [outside, List.any_cons, List.any_nil, hposition, Option.any_some, Bool.or_false]
  simp only [owes, outside_append, List.any_append, h.outside_eq, h.any_pops, houtside,
    List.any_cons, List.any_nil, hpops, Bool.or_false, Bool.false_or, Bool.not_false,
    Bool.and_true]

end Idle

def beyond (capacity maxPosition position : Int) : Bool :=
  decide (capacity ≤ position ∧ maxPosition < position)

/-- After some more commands of a use a list is short, or it is longer than it was by no more than
what the use owes for. -/
def Bounded (capacity maxPosition : Int) (earlier sent : List (Dispatch τ))
    (line line' : List ByteArray) : Prop :=
  (line'.length : Int) ≤ max capacity (maxPosition + 1) ∨ line' = [] ∨
    line'.length + (owes (beyond capacity maxPosition) earlier).toNat ≤
      line.length + (owes (beyond capacity maxPosition) (earlier ++ sent)).toNat

variable {capacity maxPosition : Int} {earlier : List (Dispatch τ)} {line : List ByteArray}

theorem Idle.bounded (h : Idle sent) : Bounded capacity maxPosition earlier sent line line := by
  right
  right
  exact Nat.le_of_eq (by rw [h.owes_append])

/-- A head that is removed makes up for whatever was owed for. -/
theorem bounded_tail : Bounded capacity maxPosition earlier sent line line.tail := by
  right
  cases line with
  | nil => exact Or.inl rfl
  | cons head rest =>
      right
      have hone := Bool.toNat_le (owes (beyond capacity maxPosition) earlier)
      rw [List.tail_cons, List.length_cons]
      omega

theorem Idle.bounded_concat {dispatch : Dispatch τ} (item : ByteArray) (h : Idle earlier)
    (hposition : dispatch.position? = some (line.length : Int)) (hpops : dispatch.pops = false) :
    Bounded capacity maxPosition earlier [dispatch] line (line ++ [item]) := by
  unfold Bounded
  rw [h.owes_eq, h.owes_entry hposition hpops, List.length_append, List.length_singleton]
  by_cases hbeyond : capacity ≤ (line.length : Int) ∧ maxPosition < line.length
  · right
    right
    rw [show beyond capacity maxPosition line.length = true from decide_eq_true hbeyond]
    exact Nat.le_refl _
  · left
    omega

end Dispatch

variable {τ : Type} [Seconds τ]

/-- Every entry that is asked for is made, and whoever asks is told.  Nobody but those who use the
queues changes the list under a key.  Anything else may go wrong. -/
def Regime.attentive (key : String) : Regime τ where
  faults command e := command.verb ≠ .rpush ∧ Blocking.isRefusal e = false
  estimates _ := True
  sleeps _ _ := True
  clock _ := True
  elsewhere keys keys' := ∀ line, keys.Lists key line → keys'.Lists key line
  noRefusal _ _ h := h.2

theorem Regime.not_fair_attentive (key : String) : ¬ (attentive key : Regime τ).Fair := by
  intro hfair
  exact hfair.faultless .ping .interrupted ⟨nofun, rfl⟩

theorem Semaphore.rejects_eq {semaphore : Semaphore τ} (hbounded : 0 < semaphore.maxPosition) :
    semaphore.rejects = beyond semaphore.capacity semaphore.maxPosition := by
  funext position
  apply decide_eq_decide.mpr
  unfold TicketForm.verdict
  show (if position < semaphore.capacity then Verdict.admitted
    else if 0 < semaphore.maxPosition ∧ semaphore.maxPosition < position then .rejected
    else .waiting) = .rejected ↔ _
  split
  · exact ⟨nofun, fun h => by omega⟩
  · split
    · exact ⟨fun _ => by omega, fun _ => rfl⟩
    · exact ⟨nofun, fun h => by omega⟩

namespace Hall

/-- The number of requests for a slot that stood too far back for their semaphores when they made
their entries, and that have not removed a head yet. -/
def rejections (hall : Hall τ) : Nat :=
  hall.errands.countP fun errand =>
    hall.users[errand.user]?.any fun user => owes user.semaphore.rejects errand.sent

/-- The instances have the same queue, with the same capacity and the same largest tolerated
position. -/
def Alike (key : String) (capacity maxPosition : Int) (hall : Hall τ) : Prop :=
  ∀ user ∈ hall.users, user.semaphore.queueKey = key ∧ user.semaphore.capacity = capacity ∧
    user.semaphore.maxPosition = maxPosition

variable {hall hall' : Hall τ} {number : Nat} {r : (Premises τ).Request}
  {answer : (Premises τ).Answer r} {sent : List (Dispatch τ)} {key : String}
  {capacity maxPosition : Int} {regime : Regime τ}

theorem Alike.gathered (h : hall.Alike key capacity maxPosition) : hall.Gathered key :=
  fun user huser => (h user huser).1

theorem Alike.step (h : hall.Alike key capacity maxPosition) (hstep : Step regime hall hall') :
    hall'.Alike key capacity maxPosition :=
  forall_of_outfits (p := fun outfit => outfit.2.queueKey = key ∧
    outfit.2.capacity = capacity ∧ outfit.2.maxPosition = maxPosition) hstep.outfits h

theorem Alike.rejections_eq (h : hall.Alike key capacity maxPosition) (hbounded : 0 < maxPosition)
    (hconducted : hall.Conducted regime) :
    hall.rejections =
      hall.errands.countP fun errand => owes (beyond capacity maxPosition) errand.sent := by
  apply List.countP_congr
  intro errand herrand
  rcases hconducted.meets errand herrand with ⟨key', hkey, _⟩
  rcases Option.map_eq_some_iff.mp hkey with ⟨user, huser, _⟩
  rcases h user (List.mem_of_getElem? huser) with ⟨_, rfl, rfl⟩
  rw [huser, Option.any_some, Semaphore.rejects_eq hbounded]

/-!
## Entries and removals
-/

theorem Answers.blank {φ : Credit} (h : Answers regime hall number r answer sent hall')
    (hblank : φ.after r answer = .blank) : φ = .blank ∧ Idle sent := by
  cases h with
  | @call client command took reply keys executed =>
      cases command with
      | rpush key' id =>
          cases reply with
          | ok length => cases hblank
          | error e => exact ⟨hblank, .singleton rfl rfl⟩
      | lpop key' count => cases hblank
      | _ => exact ⟨hblank, .singleton rfl rfl⟩
  | hold ticket split place => cases hblank
  | takeOldest split place oldest => cases hblank
  | _ => exact ⟨hblank, fun _ hdispatch => nomatch hdispatch⟩

/-- An answer either leaves the list short, or makes it longer only by an entry that is owed for. -/
theorem Answers.depth (capacity maxPosition : Int) {φ : Credit} {line : List ByteArray}
    {earlier : List (Dispatch τ)} (h : Answers (.attentive key) hall number r answer sent hall')
    (hallows : φ.allows key r) (hlists : hall.keys.Lists key line)
    (hidle : φ = .blank → Idle earlier) :
    ∃ line', hall'.keys.Lists key line' ∧
      Bounded capacity maxPosition earlier sent line line' := by
  cases h with
  | @call client command took reply keys executed =>
      have hqueue := Credit.ofQueue_of_allows hallows
      have hsame : command.effect line = line →
          Idle ([⟨command, took, reply⟩] : List (Dispatch τ)) →
          ∃ line', keys.Lists key line' ∧
            Bounded capacity maxPosition earlier [⟨command, took, reply⟩] line line' :=
        fun heffect hsent => ⟨line, executed.lists_same hlists hqueue heffect, hsent.bounded⟩
      cases command with
      | rpush key' id =>
          rcases hallows with ⟨rfl, hblank⟩
          cases executed with
          | answered decodes time =>
              have hreply : (hall.keys.run decodes time (.rpush key' id)).1.reply =
                  .ok (line.length + 1) := hlists.rpush_reply id
              have hposition : (⟨.rpush key' id, true, .ok (line.length + 1)⟩ :
                  Dispatch τ).position? = some (line.length : Int) :=
                congrArg some (show ((line.length + 1 : Nat) : Int) - 1 = _ by omega)
              rw [hreply]
              refine ⟨line ++ [id.toUTF8], hlists.run hqueue decodes time, ?_⟩
              exact (hidle hblank).bounded_concat _ hposition rfl
          | refused fault => exact absurd rfl fault.1
          | lost fault decodes time => exact absurd rfl fault.1
      | lpop key' count =>
          rcases hallows with ⟨rfl, rfl, _⟩
          cases executed with
          | answered decodes time => exact ⟨_, hlists.run hqueue decodes time, bounded_tail⟩
          | refused fault => exact ⟨line, hlists, (Idle.singleton rfl rfl).bounded⟩
          | lost fault decodes time => exact ⟨_, hlists.run hqueue decodes time, bounded_tail⟩
      | _ => exact hsame rfl (.singleton rfl rfl)
  | _ => exact ⟨line, hlists, Idle.bounded fun _ hdispatch => nomatch hdispatch⟩

/-- The list under a key is no longer than what its instances tolerate, and what is owed for. -/
structure Shallow (key : String) (capacity maxPosition : Int) (hall : Hall τ) : Prop where
  conducted : hall.Conducted (.attentive key)
  alike : hall.Alike key capacity maxPosition
  blank : ∀ errand ∈ hall.errands, errand.credit = .blank → Idle errand.sent
  lists : ∃ line, hall.keys.Lists key line ∧
    (line.length : Int) ≤ max capacity (maxPosition + 1) +
      hall.errands.countP fun errand => owes (beyond capacity maxPosition) errand.sent

theorem Shallow.opening (hopening : hall.Opening) (halike : hall.Alike key capacity maxPosition)
    (hbounded : 0 < maxPosition) (hlists : hall.keys.Lists key []) :
    hall.Shallow key capacity maxPosition := by
  refine ⟨hopening.conducted fun hfair => ?_, halike, ?_, [], hlists, ?_⟩
  · exact absurd hfair (Regime.not_fair_attentive key)
  · rw [hopening.noErrands]
    exact fun _ herrand => nomatch herrand
  · rw [hopening.noErrands, List.length_nil, List.countP_nil]
    omega

theorem Shallow.step (h : hall.Shallow key capacity maxPosition) (hbounded : 0 < maxPosition)
    (hstep : Step (.attentive key) hall hall') : hall'.Shallow key capacity maxPosition := by
  rcases h.lists with ⟨line, hlists, hlength⟩
  have hclear : hall.Clear (.attentive key) :=
    fun hfair => absurd hfair (Regime.not_fair_attentive key)
  refine ⟨h.conducted.step hclear hstep, h.alike.step hstep, ?_, ?_⟩
  · cases hstep with
    | call use here =>
        intro errand herrand hblank
        rcases List.mem_append.mp herrand with hold | hnew
        · exact h.blank errand hold hblank
        · rw [List.mem_singleton.mp hnew]
          exact fun _ hdispatch => nomatch hdispatch
    | @turn before after errand plan split turns =>
        exact forall_mem_replace split h.blank (h.blank errand (mem_of_split split))
    | @hears before after errand r answer sent plan hall'' split asks answers =>
        refine forall_mem_replace split h.blank fun hblank => ?_
        rcases answers.blank hblank with ⟨hwas, hsent⟩
        exact (h.blank errand (mem_of_split split) hwas).append hsent
    | elsewhere keys allowed => exact h.blank
  · have hite : ∀ b : Bool, (if b = true then 1 else 0) = b.toNat := fun b => by cases b <;> rfl
    cases hstep with
    | call use here =>
        refine ⟨line, hlists, ?_⟩
        rw [List.countP_append, List.countP_singleton]
        exact hlength
    | turn split turns =>
        refine ⟨line, hlists, ?_⟩
        rw [split, List.countP_append, List.countP_cons] at hlength
        rw [List.countP_append, List.countP_cons]
        exact hlength
    | @hears before after errand r answer sent plan hall'' split asks answers =>
        have herrand := mem_of_split split
        rcases h.conducted.asks hclear herrand asks answers with ⟨key', hkey, hallows, _⟩
        rw [h.alike.gathered.queueKey?_eq hkey] at hallows
        rcases answers.depth capacity maxPosition hallows hlists (h.blank errand herrand) with
          ⟨line', hlists', hline'⟩
        refine ⟨line', hlists', ?_⟩
        simp only [split, List.countP_append, List.countP_cons, hite] at hlength
        simp only [List.countP_append, List.countP_cons, hite]
        show _ ≤ _ + ((_ + (_ + (owes _ (errand.sent ++ sent)).toNat) : Nat) : Int)
        rcases hline' with hshort | rfl | hline'
        · omega
        · rw [List.length_nil]
          omega
        · omega
    | elsewhere keys allowed => exact ⟨line, allowed line hlists, hlength⟩

theorem Shallow.leads (h : hall.Shallow key capacity maxPosition) (hbounded : 0 < maxPosition)
    (hleads : Leads (.attentive key) hall hall') : hall'.Shallow key capacity maxPosition := by
  induction hleads with
  | refl => exact h
  | tail _ hstep ih => exact ih.step hbounded hstep

/-- A list that was empty at first never holds more than what its instances tolerate and the
entries of those who were rejected and have not removed a head yet.  None of these gets a slot. -/
theorem depth_le (hbounded : 0 < maxPosition) (hopening : hall.Opening)
    (halike : hall.Alike key capacity maxPosition) (hlists : hall.keys.Lists key [])
    (hleads : Leads (.attentive key) hall hall') :
    (∃ line, hall'.keys.Lists key line ∧
        (line.length : Int) ≤ max capacity (maxPosition + 1) + hall'.rejections) ∧
      ∀ errand ∈ hall'.errands, ∀ user, hall'.users[errand.user]? = some user →
        owes user.semaphore.rejects errand.sent = true → errand.plan ≠ .pure (.ok ()) := by
  constructor
  · have hshallow := (Shallow.opening hopening halike hbounded hlists).leads hbounded hleads
    rcases hshallow.lists with ⟨line, hline, hlength⟩
    refine ⟨line, hline, ?_⟩
    rw [hshallow.alike.rejections_eq hbounded hshallow.conducted]
    exact hlength
  · intro errand herrand user huser howes
    have houtside := (Bool.and_eq_true_iff.mp howes).1
    exact not_granted_of_outside hopening hleads herrand huser houtside

/-!
## A crowd at the desk
-/

theorem attentive_admits (key : String) : (Regime.attentive key : Regime Float).Admits
    fun command e => command.verb ≠ .rpush ∧ Blocking.isRefusal e = false where
  estimate _ _ := trivial
  sleep _ := trivial
  now := trivial
  fault command e h := by
    have hfaulty : command.verb ≠ .rpush ∧ Blocking.isRefusal e = false := of_decide_eq_true h
    exact hfaulty

def emptyDesk : Hall Float where
  keys := {}
  users := [⟨.blocking, desk, []⟩, ⟨.cooperative, desk, []⟩, ⟨.cooperative, desk, []⟩,
    ⟨.cooperative, desk, []⟩, ⟨.blocking, desk, []⟩]
  errands := []

/-- All instances ask for a slot.  One gets it and two may wait, but all have made an entry. -/
def onslaught : List (Turn Float) :=
  .call 0 (.acquire none) :: goOn 0 6 ++ .stir 0 .inTime :: goOn 0 4 ++
    .call 1 (.acquire none) :: goOn 1 6 ++ .call 2 (.acquire none) :: goOn 2 6 ++
    .call 3 (.acquire (some 1)) :: goOn 3 6 ++ .call 4 (.acquire none) :: goOn 4 5

/-- Two requests were rejected, and the list is as long as can be. -/
theorem depth_le_of_onslaught : ∃ hall line,
    Leads (.attentive desk.queueKey) emptyDesk hall ∧ hall.keys.Lists desk.queueKey line ∧
      line.length = 5 ∧ hall.rejections = 2 ∧
        (line.length : Int) ≤ max desk.capacity (desk.maxPosition + 1) + hall.rejections ∧
          ∀ errand ∈ hall.errands, ∀ user, hall.users[errand.user]? = some user →
            owes user.semaphore.rejects errand.sent = true → errand.plan ≠ .pure (.ok ()) := by
  have hdrive : ((emptyDesk.drive
      (fun command e => command.verb ≠ .rpush ∧ Blocking.isRefusal e = false) onslaught).map
        fun hall => ((hall.keys.items desk.queueKey).length, hall.rejections)) =
      some (5, 2) := by
    decide +kernel
  rcases Option.map_eq_some_iff.mp hdrive with ⟨hall, hhall, hseen⟩
  rcases Prod.mk.inj hseen with ⟨hitems, hrejections⟩
  have hleads := drive_leads (attentive_admits desk.queueKey) hhall
  have hopening : emptyDesk.Opening := by
    refine ⟨?_, rfl⟩
    simp [emptyDesk]
  have halike : emptyDesk.Alike desk.queueKey desk.capacity desk.maxPosition := by
    simp [Alike, emptyDesk]
  rcases depth_le (by decide) hopening halike ⟨nofun, rfl⟩ hleads with
    ⟨⟨line, hlists, hlength⟩, hgranted⟩
  rw [hlists.items] at hitems
  exact ⟨hall, line, hleads, hlists, hitems, hrejections, hlength, hgranted⟩

end Hall
end Turnstile
