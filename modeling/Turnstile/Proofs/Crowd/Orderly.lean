import Turnstile.Proofs.Crowd.Register

/-!
# Orderly registers

An identity that was pushed has a place, which counts all items that were ever in the queue before
it, and of these as many as were removed are gone.  So whoever is told a position below capacity
has a place below the number of removed items plus capacity, and no more can have been admitted.
An item is removed only for an admitted call that gave back its slot, and this leaves room for at
most `capacity` slots at once.

The answer for an identity that is not found is harmless for two reasons.  With more than one slot
it admits a waiter that was passed by already.  With one slot it admits nobody, and there is no
such waiter: as many entries were admitted, in order, as were removed, or one more.

## Main statements

* `Register.Moves.orderly` - every move keeps a register orderly.
* `Register.Orderly.taken_le` - at most `capacity` slots are in use.
* `Register.Orderly.admits` - whoever has a place below the number of removed items plus capacity
  is admitted as soon as it looks.
-/

namespace Turnstile
namespace Register

def arrivals (initial : List ByteArray) (entries : List String) : List ByteArray :=
  initial ++ entries.map String.toUTF8

/-- The number of items that were ever in the queue before an identity. -/
def place (initial : List ByteArray) (entries : List String) (id : String) : Nat :=
  initial.length + entries.idxOf id

section Places

variable {initial : List ByteArray} {entries : List String} {standings : List Standing}
  {id : String}

theorem length_arrivals :
    (arrivals initial entries).length = initial.length + entries.length := by
  unfold arrivals
  rw [List.length_append, List.length_map]

theorem arrivals_concat :
    arrivals initial (entries ++ [id]) = arrivals initial entries ++ [id.toUTF8] := by
  unfold arrivals
  rw [List.map_append, ← List.append_assoc]
  rfl

theorem place_concat_of_mem (hid : id ∈ entries) (id' : String) :
    place initial (entries ++ [id']) id = place initial entries id := by
  unfold place
  rw [List.idxOf_append_of_mem hid]

theorem toUTF8_notMem_map (hid : id ∉ entries) : id.toUTF8 ∉ entries.map String.toUTF8 := by
  intro hmem
  rcases List.mem_map.mp hmem with ⟨id', hid', heq⟩
  rw [String.toByteArray_inj.mp heq] at hid'
  exact hid hid'

theorem idxOf?_append_cons {α : Type} [BEq α] [LawfulBEq α] {p : List α} {b : α} (hp : b ∉ p)
    (q : List α) : (p ++ b :: q).idxOf? b = some p.length := by
  induction p with
  | nil => simp [List.idxOf?_cons]
  | cons a p ih =>
      have ha : (a == b) = false := by
        rw [beq_eq_false_iff_ne]
        intro heq
        rw [heq] at hp
        exact hp (List.mem_cons_self ..)
      rw [List.cons_append, List.idxOf?_cons, ha, ih fun hb => hp (List.mem_cons_of_mem _ hb)]
      rfl

theorem idxOf?_drop_append_cons {α : Type} [BEq α] [LawfulBEq α] {p q : List α} {b : α}
    (hp : b ∉ p) (hq : b ∉ q) (n : Nat) :
    ((p ++ b :: q).drop n).idxOf? b = if p.length < n then none else some (p.length - n) := by
  by_cases hn : p.length < n
  · rw [if_pos hn, List.idxOf?_eq_none_iff, List.drop_append, List.drop_eq_nil_of_le (by omega),
      List.nil_append, show n - p.length = (n - p.length - 1) + 1 by omega, List.drop_succ_cons]
    exact fun hb => hq (List.mem_of_mem_drop hb)
  · rw [if_neg hn, List.drop_append_of_le_length (by omega),
      idxOf?_append_cons fun hb => hp (List.mem_of_mem_drop hb), List.length_drop]

theorem isPrefix_concat {admissions : List String} (hbefore : admissions <+: entries)
    (hid : id ∈ entries) (hindex : entries.idxOf id = admissions.length) :
    admissions ++ [id] <+: entries := by
  rcases hbefore with ⟨rest, rfl⟩
  have hnew : id ∉ admissions := by
    intro hmem
    rw [List.idxOf_append_of_mem hmem] at hindex
    have hlt := List.idxOf_lt_length_of_mem hmem
    omega
  rw [List.idxOf_append_of_notMem hnew] at hindex
  cases rest with
  | nil =>
      rw [List.append_nil] at hid
      exact absurd hid hnew
  | cons other rest =>
      have hother : other = id := by
        by_contra hne
        rw [List.idxOf_cons_ne _ hne] at hindex
        omega
      rw [hother, List.prefix_append_right_inj]
      exact List.prefix_append [id] rest

theorem Distinct.rank (h : Distinct initial entries standings) (hid : id ∈ entries)
    (removed : Nat) :
    ((arrivals initial entries).drop removed).idxOf? id.toUTF8 =
      if place initial entries id < removed then none
      else some (place initial entries id - removed) := by
  rcases List.append_of_mem hid with ⟨earlier, later, rfl⟩
  have hnodup := h.entries_nodup
  rw [List.nodup_append, List.nodup_cons] at hnodup
  have hearlier : id ∉ earlier := fun hmem => hnodup.2.2 id hmem id (List.mem_cons_self ..) rfl
  have hbefore : id.toUTF8 ∉ initial ++ earlier.map String.toUTF8 := by
    rw [List.mem_append]
    intro hmem
    rcases hmem with hinitial | hmem
    · exact h.ids_apart id (h.entries_ids id hid) hinitial
    · exact toUTF8_notMem_map hearlier hmem
  have harrivals : arrivals initial (earlier ++ id :: later) =
      (initial ++ earlier.map String.toUTF8) ++ id.toUTF8 :: later.map String.toUTF8 := by
    unfold arrivals
    rw [List.map_append, List.map_cons, List.append_assoc]
  have hplace : place initial (earlier ++ id :: later) id =
      (initial ++ earlier.map String.toUTF8).length := by
    unfold place
    rw [List.idxOf_append_of_notMem hearlier, List.idxOf_cons_self, List.length_append,
      List.length_map, Nat.add_zero]
  rw [harrivals, hplace]
  exact idxOf?_drop_append_cons hbefore (toUTF8_notMem_map hnodup.2.1.1) removed

end Places

/-!
## The invariant
-/

/-- What holds of a register whatever its users do. -/
structure Orderly (capacity : Int) (initial : List ByteArray) (reg : Register) : Prop where
  distinct : Distinct initial reg.entries reg.standings
  line : reg.line = (arrivals initial reg.entries).drop reg.removed
  removed_le : reg.removed ≤ reg.gone
  slots : reg.taken + reg.gone ≤ reg.admissions.length
  admissions_nodup : reg.admissions.Nodup
  reached : ∀ id ∈ reg.admissions, id ∈ reg.entries ∧
    (place initial reg.entries id : Int) < reg.removed + capacity
  unadmitted : ∀ id, .waiting id ∈ reg.standings → id ∉ reg.admissions
  /-- With one slot admissions are made in the order of entries. -/
  single : capacity = 1 → reg.admissions <+: reg.entries ∧ (reg.admissions ≠ [] → initial = [])

namespace Orderly

variable {capacity : Int} {initial : List ByteArray} {reg reg' : Register}
  {before after : List Standing} {id : String}

theorem admissions_le (h : Orderly capacity initial reg) :
    reg.admissions.length ≤ reg.entries.length :=
  (List.subperm_of_subset h.admissions_nodup fun id hid => (h.reached id hid).1).length_le

theorem removed_le_entries (h : Orderly capacity initial reg) :
    reg.removed ≤ reg.entries.length := by
  have hremoved := h.removed_le
  have hslots := h.slots
  have hadmissions := h.admissions_le
  omega

theorem removed_le_arrivals (h : Orderly capacity initial reg) :
    reg.removed ≤ (arrivals initial reg.entries).length := by
  rw [length_arrivals]
  have hremoved := h.removed_le_entries
  omega

theorem removed_le_place (h : Orderly capacity initial reg) (hcapacity : capacity = 1)
    (hid : id ∉ reg.admissions) : reg.removed ≤ place initial reg.entries id := by
  have hbefore := (h.single hcapacity).1
  have hplace : ¬ reg.entries.idxOf id < reg.admissions.length := by
    rw [← hbefore.mem_iff_idxOf_lt_length]
    exact hid
  have hremoved := h.removed_le
  have hslots := h.slots
  unfold place
  omega

theorem mem_line (h : Orderly capacity initial reg) (hid : id ∈ reg.entries)
    (hplace : reg.removed ≤ place initial reg.entries id) : id.toUTF8 ∈ reg.line := by
  rw [← List.isSome_idxOf?, h.line, h.distinct.rank hid, if_neg (by omega)]
  rfl

theorem position_eq (h : Orderly capacity initial reg) (hid : id ∈ reg.entries) :
    positionOfRank (reg.line.idxOf? id.toUTF8) =
      if place initial reg.entries id < reg.removed then absentPosition
      else (place initial reg.entries id - reg.removed : Nat) := by
  rw [h.line, h.distinct.rank hid]
  split <;> rfl

theorem place_lt (h : Orderly capacity initial reg) (hid : id ∈ reg.entries)
    (hroom : positionOfRank (reg.line.idxOf? id.toUTF8) < capacity) :
    (place initial reg.entries id : Int) < reg.removed + capacity := by
  rw [h.position_eq hid] at hroom
  unfold absentPosition at hroom
  split at hroom <;> omega

theorem admits (h : Orderly capacity initial reg) (hcapacity : 1 ≤ capacity)
    (hid : id ∈ reg.entries) (hunadmitted : id ∉ reg.admissions)
    (hplace : (place initial reg.entries id : Int) < reg.removed + capacity) :
    positionOfRank (reg.line.idxOf? id.toUTF8) < capacity := by
  rw [h.position_eq hid]
  unfold absentPosition
  split
  · -- A caller that was passed by is told the position of one that is not found.  That is below
    -- any capacity but one, and with one slot nobody is passed by.
    rename_i hpassed
    by_cases hsingle : capacity = 1
    · have hle := h.removed_le_place hsingle hunadmitted
      omega
    · omega
  · omega

theorem admissions_le_removed (h : Orderly capacity initial reg) (hcapacity : 0 ≤ capacity) :
    (reg.admissions.length : Int) ≤ reg.removed + capacity := by
  -- Whoever was admitted is among the first entries, and nobody was admitted twice.
  have hsubset : reg.admissions ⊆ reg.entries.take (reg.removed + capacity).toNat := by
    intro id hid
    rcases h.reached id hid with ⟨hentry, hplace⟩
    rw [List.mem_take_iff_idxOf_lt hentry]
    unfold place at hplace
    omega
  have hlength := (List.subperm_of_subset h.admissions_nodup hsubset).length_le
  rw [List.length_take] at hlength
  omega

theorem taken_le (h : Orderly capacity initial reg) (hcapacity : 0 ≤ capacity) :
    (reg.taken : Int) ≤ capacity := by
  have hadmissions := h.admissions_le_removed hcapacity
  have hremoved := h.removed_le
  have hslots := h.slots
  omega

/-!
## Moves
-/

theorem of_same (lossy : Prop) (h : Orderly capacity initial reg)
    (hmoves : Moves capacity initial lossy reg reg') (hline : reg'.line = reg.line)
    (hremoved : reg'.removed = reg.removed) (hentries : reg'.entries = reg.entries)
    (hadmissions : reg'.admissions = reg.admissions)
    (hwaiting : ∀ id, .waiting id ∈ reg'.standings → .waiting id ∈ reg.standings) :
    Orderly capacity initial reg' := by
  have hgone := hmoves.removed_gone.1
  have htaken := hmoves.taken_gone.1
  rw [hremoved] at hgone
  rw [hadmissions] at htaken
  refine ⟨hmoves.distinct h.distinct, ?_, ?_, ?_, ?_, ?_, ?_, ?_⟩
  · rw [hline, hentries, hremoved]
    exact h.line
  · have hle := h.removed_le
    omega
  · have hslots := h.slots
    rw [hadmissions]
    omega
  · rw [hadmissions]
    exact h.admissions_nodup
  · rw [hadmissions, hentries, hremoved]
    exact h.reached
  · rw [hadmissions]
    exact fun id hid => h.unadmitted id (hwaiting id hid)
  · rw [hadmissions, hentries]
    exact h.single

theorem push (h : Orderly capacity initial reg) (new : Standing)
    (split : reg.standings = before ++ .named id :: after) (hnew : new.id? = some id)
    (hnamed : ∀ id, new ≠ .named id) (hadmission : (Standing.named id).admission new = [])
    (hcounts : new.counts = false) (hgone : new.isGone = false) :
    Orderly capacity initial { reg.become before after (.named id) new with
      line := reg.line ++ [id.toUTF8]
      entries := reg.entries ++ [id] } := by
  have hdistinct := h.distinct
  rw [split] at hdistinct
  have hfresh : id ∉ reg.entries := hdistinct.named_new id (by simp)
  have hadmissions : (reg.become before after (.named id) new).admissions = reg.admissions := by
    rw [become, hadmission, List.append_nil]
  have hgone' : (before ++ new :: after).countP Standing.isGone = reg.gone := by
    rw [gone, split, countP_split, countP_split, hgone]
    rfl
  refine ⟨hdistinct.enter hnew hnamed, ?_, ?_, ?_, ?_, ?_, ?_, ?_⟩
  · show reg.line ++ [id.toUTF8] = (arrivals initial (reg.entries ++ [id])).drop reg.removed
    rw [arrivals_concat, List.drop_append_of_le_length h.removed_le_arrivals, h.line]
  · rw [gone]
    show reg.removed ≤ (before ++ new :: after).countP Standing.isGone
    rw [hgone']
    exact h.removed_le
  · have hslots := h.slots
    rw [taken_add_gone, split, countP_split] at hslots
    rw [taken_add_gone]
    show (before ++ new :: after).countP Standing.counts + reg.held ≤
      (reg.become before after (.named id) new).admissions.length
    rw [countP_split, hcounts, hadmissions]
    exact hslots
  · show (reg.become before after (.named id) new).admissions.Nodup
    rw [hadmissions]
    exact h.admissions_nodup
  · show ∀ id' ∈ (reg.become before after (.named id) new).admissions, _
    rw [hadmissions]
    intro id' hid'
    rcases h.reached id' hid' with ⟨hentry, hplace⟩
    refine ⟨List.mem_append_left _ hentry, ?_⟩
    show (place initial (reg.entries ++ [id]) id' : Int) < reg.removed + capacity
    rw [place_concat_of_mem hentry]
    exact hplace
  · intro id' hid'
    show id' ∉ (reg.become before after (.named id) new).admissions
    rw [hadmissions]
    rcases Distinct.mem_replaced hid' with hwaiting | hold
    · rw [← hwaiting] at hnew
      cases hnew
      exact fun hadmitted => hfresh (h.reached id hadmitted).1
    · refine h.unadmitted id' ?_
      rw [split]
      exact hold
  · show capacity = 1 → (reg.become before after (.named id) new).admissions <+: _ ∧
      ((reg.become before after (.named id) new).admissions ≠ [] → _)
    rw [hadmissions]
    intro hcapacity
    rcases h.single hcapacity with ⟨hbefore, hempty⟩
    exact ⟨hbefore.trans (List.prefix_append _ _), hempty⟩

theorem letIn (h : Orderly capacity initial reg)
    (split : reg.standings = before ++ .waiting id :: after)
    (hroom : positionOfRank (reg.line.idxOf? id.toUTF8) < capacity) :
    Orderly capacity initial (reg.become before after (.waiting id) (.admitted id)) := by
  have hmoves : Moves capacity initial False reg
      (reg.become before after (.waiting id) (.admitted id)) := by
    have hlook : Moves capacity initial False reg (reg.become before after (.waiting id)
        (.judged capacity id (positionOfRank (reg.line.idxOf? id.toUTF8)))) := .look split
    rw [Standing.judged, if_pos hroom] at hlook
    exact hlook
  have hwaiting : Standing.waiting id ∈ reg.standings := by
    rw [split]
    exact List.mem_append_right _ (List.mem_cons_self ..)
  have hentry := h.distinct.waiting_entered id hwaiting
  have hunadmitted := h.unadmitted id hwaiting
  have hplace := h.place_lt hentry hroom
  refine ⟨hmoves.distinct h.distinct, h.line, ?_, ?_, ?_, ?_, ?_, ?_⟩
  · have hremoved := h.removed_le
    have hgone := hmoves.removed_gone.1
    show reg.removed ≤ _
    have hsame : (reg.become before after (.waiting id) (.admitted id)).removed = reg.removed := rfl
    omega
  · have hslots := h.slots
    have htaken := hmoves.taken_gone.1
    omega
  · refine List.nodup_append.mpr ⟨h.admissions_nodup, List.pairwise_singleton _ _, ?_⟩
    intro id' hid' other hother heq
    rw [heq, List.mem_singleton.mp hother] at hid'
    exact hunadmitted hid'
  · intro id' hid'
    rcases List.mem_append.mp hid' with hold | hnew
    · exact h.reached id' hold
    · rw [List.mem_singleton.mp hnew]
      exact ⟨hentry, hplace⟩
  · intro id' hid' hadmitted
    have hdistinct := h.distinct
    rw [split] at hdistinct
    have hothers := hdistinct.others rfl
    have helsewhere : .waiting id' ∈ before ∨ .waiting id' ∈ after := by
      rcases List.mem_append.mp hid' with hbefore | hafter
      · exact Or.inl hbefore
      · rcases List.mem_cons.mp hafter with hnew | hafter
        · cases hnew
        · exact Or.inr hafter
    rcases List.mem_append.mp hadmitted with hold | hnew
    · refine h.unadmitted id' ?_ hold
      rw [split]
      rcases helsewhere with hbefore | hafter
      · exact List.mem_append_left _ hbefore
      · exact List.mem_append_right _ (List.mem_cons_of_mem _ hafter)
    · rw [List.mem_singleton.mp hnew] at helsewhere
      rcases helsewhere with hbefore | hafter
      · exact hothers.1 (Distinct.mem_ids hbefore rfl)
      · exact hothers.2 (Distinct.mem_ids hafter rfl)
  · -- Its place is the number of removed heads, and at least the number of admissions.
    intro hcapacity
    have hbefore := (h.single hcapacity).1
    have hle := h.removed_le_place hcapacity hunadmitted
    have hremoved := h.removed_le
    have hslots := h.slots
    have hindex : ¬ reg.entries.idxOf id < reg.admissions.length := by
      rw [← hbefore.mem_iff_idxOf_lt_length]
      exact hunadmitted
    unfold place at hplace hle
    show reg.admissions ++ [id] <+: reg.entries ∧ _
    refine ⟨isPrefix_concat hbefore hentry (by omega), fun _ => ?_⟩
    exact List.eq_nil_of_length_eq_zero (by omega)

theorem look (h : Orderly capacity initial reg)
    (split : reg.standings = before ++ .waiting id :: after) :
    Orderly capacity initial (reg.become before after (.waiting id)
      (.judged capacity id (positionOfRank (reg.line.idxOf? id.toUTF8)))) := by
  unfold Standing.judged
  by_cases hroom : positionOfRank (reg.line.idxOf? id.toUTF8) < capacity
  · rw [if_pos hroom]
    exact h.letIn split hroom
  · rw [if_neg hroom, become_self split]
    exact h

theorem remove (h : Orderly capacity initial reg)
    (split : reg.standings = before ++ .returning :: after) :
    Orderly capacity initial { reg.become before after .returning .gone with
      line := reg.line.tail
      removed := reg.removed + 1 } := by
  have hmoves : Moves capacity initial False reg
      { reg.become before after .returning .gone with
        line := reg.line.tail
        removed := reg.removed + 1 } := .remove split
  have hadmissions : reg.admissions ++ Standing.returning.admission .gone = reg.admissions :=
    List.append_nil _
  refine ⟨hmoves.distinct h.distinct, ?_, ?_, ?_, ?_, ?_, ?_, ?_⟩
  · show reg.line.tail = _
    rw [h.line, List.tail_drop]
    rfl
  · have hremoved := h.removed_le
    have hgone := hmoves.removed_gone.1
    dsimp only at hgone ⊢
    omega
  · have hslots := h.slots
    have htaken := hmoves.taken_gone.1
    omega
  · show (reg.admissions ++ _).Nodup
    rw [hadmissions]
    exact h.admissions_nodup
  · show ∀ id ∈ reg.admissions ++ _, _
    rw [hadmissions]
    intro id hid
    rcases h.reached id hid with ⟨hentry, hplace⟩
    refine ⟨hentry, ?_⟩
    show (place initial reg.entries id : Int) < (reg.removed + 1 : Nat) + capacity
    omega
  · intro id hid
    show id ∉ reg.admissions ++ _
    rw [hadmissions]
    refine h.unadmitted id ?_
    rw [split]
    rcases Distinct.mem_replaced hid with hnew | hold
    · cases hnew
    · exact hold
  · show capacity = 1 → reg.admissions ++ _ <+: _ ∧ (reg.admissions ++ _ ≠ [] → _)
    rw [hadmissions]
    exact h.single

end Orderly

theorem waiting_of_become {reg : Register} {before after : List Standing} {old new : Standing}
    (split : reg.standings = before ++ old :: after) (hnew : ∀ id, new ≠ .waiting id) (id : String)
    (hid : .waiting id ∈ before ++ new :: after) : .waiting id ∈ reg.standings := by
  rw [split]
  rcases Distinct.mem_replaced hid with hwaiting | hold
  · exact absurd hwaiting.symm (hnew id)
  · exact hold

/-- The first position of a call is the one that it would find with its entry made. -/
theorem Orderly.enter {capacity : Int} {initial : List ByteArray} {reg : Register}
    {before after : List Standing} {id : String} (h : Orderly capacity initial reg)
    (split : reg.standings = before ++ .named id :: after) :
    Orderly capacity initial
      { reg.become before after (.named id) (.entered capacity id (reg.line.length + 1)) with
        line := reg.line ++ [id.toUTF8]
        entries := reg.entries ++ [id] } := by
  have hdistinct := h.distinct
  rw [split] at hdistinct
  have hfresh : id ∉ reg.entries := hdistinct.named_new id (by simp)
  -- The call is judged as if it had entered first and looked then.
  have hpushed := h.push (.waiting id) split rfl (by simp) rfl rfl rfl
  have hlook := hpushed.look rfl
  have habsent : id.toUTF8 ∉ reg.line := by
    rw [h.line]
    intro hmem
    rcases List.mem_append.mp (List.mem_of_mem_drop hmem) with hinitial | hentry
    · refine hdistinct.ids_apart id ?_ hinitial
      exact Distinct.mem_ids (List.mem_append_right _ (List.mem_cons_self ..)) rfl
    · exact toUTF8_notMem_map hfresh hentry
  have hposition : positionOfRank ((reg.line ++ [id.toUTF8]).idxOf? id.toUTF8) =
      (reg.line.length + 1 : Nat) - 1 := by
    rw [idxOf?_append_cons habsent]
    simp [positionOfRank]
  have hadmission : (reg.admissions ++ (Standing.named id).admission (.waiting id)) ++
      (Standing.waiting id).admission (.entered capacity id (reg.line.length + 1)) =
      reg.admissions ++
        (Standing.named id).admission (.entered capacity id (reg.line.length + 1)) := by
    unfold Standing.entered
    rw [Standing.admission_judged (show Standing.named id ≠ .admitted id by simp),
      Standing.admission_judged (show Standing.waiting id ≠ .admitted id by simp)]
    simp [Standing.admission]
  unfold become at hlook ⊢
  dsimp only at hlook
  rw [hposition, ← Standing.entered, hadmission] at hlook
  exact hlook

theorem Moves.orderly {capacity : Int} {initial : List ByteArray} {lossy : Prop}
    {reg reg' : Register} (hmoves : Moves capacity initial lossy reg reg')
    (h : Orderly capacity initial reg) : Orderly capacity initial reg' := by
  cases hmoves with
  | rest => exact h
  | ask =>
      refine h.of_same lossy .ask rfl rfl rfl rfl ?_
      intro id hid
      rcases List.mem_append.mp hid with hold | hnew
      · exact hold
      · cases List.mem_singleton.mp hnew
  | leave =>
      refine h.of_same lossy .leave rfl rfl rfl rfl ?_
      intro id hid
      rcases List.mem_append.mp hid with hold | hnew
      · exact hold
      · cases List.mem_singleton.mp hnew
  | name split fresh apart =>
      exact h.of_same lossy (.name split fresh apart) rfl rfl rfl
        (List.append_nil _) (waiting_of_become split (by simp))
  | enter split => exact h.enter split
  | enterUnseen split lost =>
      exact h.push _ split rfl (by simp) rfl rfl rfl
  | look split => exact h.look split
  | fail split hasId lost =>
      exact h.of_same lossy (.fail split hasId lost) rfl rfl rfl
        (List.append_nil _) (waiting_of_become split (by simp))
  | settle split =>
      exact h.of_same lossy (.settle split) rfl rfl rfl
        (List.append_nil _) (waiting_of_become split (by simp))
  | take split some =>
      exact h.of_same lossy (.take split some) rfl rfl rfl
        (List.append_nil _) (waiting_of_become split (by simp))
  | takeNone split =>
      exact h.of_same lossy (.takeNone split) rfl rfl rfl
        (List.append_nil _) (waiting_of_become split (by simp))
  | remove split => exact h.remove split
  | removeNone split lost =>
      exact h.of_same lossy (.removeNone split lost) rfl rfl rfl
        (List.append_nil _) (waiting_of_become split (by simp))

theorem Moves.grows {capacity : Int} {initial : List ByteArray} {lossy : Prop}
    {reg reg' : Register} (hmoves : Moves capacity initial lossy reg reg') :
    reg.removed ≤ reg'.removed ∧ reg.entries <+: reg'.entries ∧
      reg.admissions <+: reg'.admissions := by
  cases hmoves with
  | enter split =>
      exact ⟨Nat.le_refl _, List.prefix_append _ _, List.prefix_append _ _⟩
  | enterUnseen split lost =>
      exact ⟨Nat.le_refl _, List.prefix_append _ _, List.prefix_append _ _⟩
  | remove split => exact ⟨Nat.le_succ _, List.prefix_rfl, List.prefix_append _ _⟩
  | rest => exact ⟨Nat.le_refl _, List.prefix_rfl, List.prefix_rfl⟩
  | ask => exact ⟨Nat.le_refl _, List.prefix_rfl, List.prefix_rfl⟩
  | leave => exact ⟨Nat.le_refl _, List.prefix_rfl, List.prefix_rfl⟩
  | _ => exact ⟨Nat.le_refl _, List.prefix_rfl, List.prefix_append _ _⟩

/-!
## Registers in which nothing got lost
-/

/-- What holds in addition as long as nothing gets lost. -/
structure Complete (reg : Register) : Prop where
  admitted_or_waiting : ∀ id ∈ reg.entries, id ∈ reg.admissions ∨ .waiting id ∈ reg.standings
  slots : reg.taken + reg.gone = reg.admissions.length
  removed : reg.removed = reg.gone

section Complete

variable {capacity : Int} {initial : List ByteArray} {lossy : Prop} {reg reg' : Register}
  {before after : List Standing} {old new : Standing} {id : String}

theorem waiting_in_become (hold : ∀ id, old ≠ .waiting id)
    (hid : .waiting id ∈ before ++ old :: after) : .waiting id ∈ before ++ new :: after := by
  rcases Distinct.mem_replaced hid with hwaiting | hnew
  · exact absurd hwaiting.symm (hold id)
  · exact hnew

theorem admitted_or_waiting_of_judged (capacity position : Int) (hold : old ≠ .admitted id) :
    id ∈ old.admission (.judged capacity id position) ∨
      Standing.judged capacity id position = .waiting id := by
  rw [Standing.admission_judged hold]
  unfold Standing.judged
  split
  · exact Or.inl (List.mem_cons_self ..)
  · exact Or.inr rfl

theorem Complete.become (h : Complete reg) (split : reg.standings = before ++ old :: after)
    (hold : ∀ id, old ≠ .waiting id) (id : String) (hid : id ∈ reg.entries) :
    id ∈ (reg.become before after old new).admissions ∨ .waiting id ∈ before ++ new :: after := by
  rcases h.admitted_or_waiting id hid with hadmitted | hwaiting
  · exact Or.inl (List.mem_append_left _ hadmitted)
  · rw [split] at hwaiting
    exact Or.inr (waiting_in_become hold hwaiting)

theorem Moves.admitted_or_waiting (hmoves : Moves capacity initial lossy reg reg')
    (hlossy : ¬ lossy) (h : Complete reg) :
    ∀ id ∈ reg'.entries, id ∈ reg'.admissions ∨ .waiting id ∈ reg'.standings := by
  cases hmoves with
  | rest => exact h.admitted_or_waiting
  | ask =>
      intro id hid
      rcases h.admitted_or_waiting id hid with hadmitted | hwaiting
      · exact Or.inl hadmitted
      · exact Or.inr (List.mem_append_left _ hwaiting)
  | leave =>
      intro id hid
      rcases h.admitted_or_waiting id hid with hadmitted | hwaiting
      · exact Or.inl hadmitted
      · exact Or.inr (List.mem_append_left _ hwaiting)
  | name split fresh apart => exact h.become split (by simp)
  | @enter before after id split =>
      intro id' hid'
      rcases List.mem_append.mp hid' with hentry | hnew
      · exact h.become split (by simp) id' hentry
      · rw [List.mem_singleton.mp hnew]
        rcases admitted_or_waiting_of_judged capacity ((reg.line.length + 1 : Nat) - 1)
          (show Standing.named id ≠ .admitted id by simp) with hadmitted | hwaiting
        · exact Or.inl (List.mem_append_right _ hadmitted)
        · refine Or.inr (List.mem_append_right _ ?_)
          show Standing.waiting id ∈ Standing.entered capacity id (reg.line.length + 1) :: after
          rw [Standing.entered, hwaiting]
          exact List.mem_cons_self ..
  | enterUnseen split lost => exact absurd lost hlossy
  | @look before after id split =>
      intro id' hid'
      rcases h.admitted_or_waiting id' hid' with hadmitted | hwaiting
      · exact Or.inl (List.mem_append_left _ hadmitted)
      · rw [split] at hwaiting
        have hreplaced : Standing.waiting id' = .waiting id ∨ Standing.waiting id' ∈ before ++
            .judged capacity id (positionOfRank (reg.line.idxOf? id.toUTF8)) :: after :=
          Distinct.mem_replaced hwaiting
        rcases hreplaced with hsame | hothers
        · cases hsame
          rcases admitted_or_waiting_of_judged capacity
            (positionOfRank (reg.line.idxOf? id.toUTF8))
            (show Standing.waiting id ≠ .admitted id by simp) with hadmitted | hwaiting'
          · exact Or.inl (List.mem_append_right _ hadmitted)
          · refine Or.inr (List.mem_append_right _ ?_)
            rw [hwaiting']
            exact List.mem_cons_self ..
        · exact Or.inr hothers
  | fail split hasId lost => exact absurd lost hlossy
  | settle split => exact h.become split (by simp)
  | take split some => exact h.become split (by simp)
  | takeNone split => exact h.become split (by simp)
  | remove split => exact h.become split (by simp)
  | removeNone split lost => exact absurd lost hlossy

theorem Moves.complete (hmoves : Moves capacity initial lossy reg reg') (hlossy : ¬ lossy)
    (h : Complete reg) : Complete reg' := by
  have htaken := hmoves.taken_gone.2 hlossy
  have hremoved := hmoves.removed_gone.2 hlossy
  have hslots := h.slots
  have hgone := h.removed
  refine ⟨hmoves.admitted_or_waiting hlossy h, ?_, ?_⟩
  · omega
  · omega

theorem Complete.place_lt (hcomplete : Complete reg) (h : Orderly capacity [] reg)
    (hfree : (reg.taken : Int) < capacity) (hid : id ∈ reg.entries)
    (hfirst : ∀ other, .waiting other ∈ reg.standings →
      reg.entries.idxOf id ≤ reg.entries.idxOf other) :
    (place [] reg.entries id : Int) < reg.removed + capacity := by
  -- Everybody who entered before was admitted, and that is fewer than all who can be.
  have hadmitted : reg.entries.take (reg.entries.idxOf id) ⊆ reg.admissions := by
    intro other hother
    have hentry := List.mem_of_mem_take hother
    rcases hcomplete.admitted_or_waiting other hentry with hadmitted | hwaiting
    · exact hadmitted
    · have hle := hfirst other hwaiting
      rw [List.mem_take_iff_idxOf_lt hentry] at hother
      omega
  have hnodup := h.distinct.entries_nodup.sublist (List.take_sublist (reg.entries.idxOf id) _)
  have hlength := (List.subperm_of_subset hnodup hadmitted).length_le
  have hindex := List.idxOf_lt_length_of_mem hid
  have hslots := hcomplete.slots
  have hremoved := hcomplete.removed
  rw [List.length_take] at hlength
  unfold place
  rw [List.length_nil]
  omega

theorem Complete.entries_lt (hcomplete : Complete reg) (h : Orderly capacity [] reg)
    (hfree : (reg.taken : Int) < capacity) (hnobody : ∀ id, .waiting id ∉ reg.standings) :
    (reg.entries.length : Int) < reg.removed + capacity := by
  have hadmitted : reg.entries ⊆ reg.admissions := by
    intro id hid
    rcases hcomplete.admitted_or_waiting id hid with hadmitted | hwaiting
    · exact hadmitted
    · exact absurd hwaiting (hnobody id)
  have hlength := (List.subperm_of_subset h.distinct.entries_nodup hadmitted).length_le
  have hslots := hcomplete.slots
  have hremoved := hcomplete.removed
  omega

end Complete

/-!
## Runs
-/

abbrev Goes (capacity : Int) (initial : List ByteArray) (lossy : Prop) :
    Register → Register → Prop :=
  Relation.ReflTransGen (Moves capacity initial lossy)

namespace Goes

variable {capacity : Int} {initial : List ByteArray} {lossy : Prop} {reg reg' : Register}

theorem orderly (hgoes : Goes capacity initial lossy reg reg') (h : Orderly capacity initial reg) :
    Orderly capacity initial reg' := by
  induction hgoes with
  | refl => exact h
  | tail _ hmoves ih => exact hmoves.orderly ih

theorem complete (hgoes : Goes capacity initial lossy reg reg') (hlossy : ¬ lossy)
    (h : Complete reg) : Complete reg' := by
  induction hgoes with
  | refl => exact h
  | tail _ hmoves ih => exact hmoves.complete hlossy ih

theorem grows (hgoes : Goes capacity initial lossy reg reg') :
    reg.removed ≤ reg'.removed ∧ reg.entries <+: reg'.entries ∧
      reg.admissions <+: reg'.admissions := by
  induction hgoes with
  | refl => exact ⟨Nat.le_refl _, List.prefix_rfl, List.prefix_rfl⟩
  | tail _ hmoves ih =>
      have hstep := hmoves.grows
      exact ⟨Nat.le_trans ih.1 hstep.1, ih.2.1.trans hstep.2.1, ih.2.2.trans hstep.2.2⟩

end Goes

end Register
end Turnstile
