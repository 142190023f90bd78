import Rproxy.Balance.Choice

/-!
# What `order` offers

Both ways of listing the targets give the same list (`order_eq_orderSlow`): the eligible ones from
the chosen one on, then, each once, the others that are up, those down and the full ones.
-/

namespace Rproxy.Balancing
open List Turns BitSet
variable {l : List ℕ} {i : ℕ}

/-! ## Adding what is not there yet -/

def addNew (o l : List ℕ) : List ℕ := l.foldl (fun o i => if i ∈ o then o else o ++ [i]) o

lemma addNew_append (o l l' : List ℕ) : addNew o (l ++ l') = addNew (addNew o l) l' :=
  foldl_append

lemma addNew_of_nodup {o : List ℕ} (h : l.Nodup) : addNew o l = o ++ l.filter (· ∉ o) := by
  induction l generalizing o with
  | nil => rw [filter_nil, append_nil]; rfl
  | cons i l ih =>
    obtain ⟨hi, hl⟩ := nodup_cons.mp h
    show addNew (if i ∈ o then o else o ++ [i]) l = _
    by_cases hmem : i ∈ o
    · rw [if_pos hmem, ih hl, filter_cons_of_neg (by simpa using hmem)]
    have hrest : l.filter (· ∉ o ++ [i]) = l.filter (· ∉ o) := by
      refine filter_congr fun j hj => ?_
      have hne : j ≠ i := fun heq => hi (heq ▸ hj)
      simp [hne]
    rw [if_neg hmem, ih hl, filter_cons_of_pos (by simpa using hmem), hrest,
      append_assoc, singleton_append]

lemma foldl_add_eq_addNew {c : ℕ → Prop} [DecidablePred c] (o l : List ℕ) :
    l.foldl (fun o i => if i ∉ o ∧ c i then o ++ [i] else o) o =
      addNew o (l.filter fun i => c i) := by
  rw [addNew, foldl_filter]
  refine foldl_ext _ _ _ fun o i _ => ?_
  by_cases hc : c i <;> by_cases hi : i ∈ o <;> simp [hc, hi]

namespace Roster

def Placed.Right (p : Placed) : Prop := ∀ i < 64, p.placed.getLsbD i = decide (i ∈ p.out)

lemma Placed.push_eq {p : Placed} (h : p.Right) (hi : i < 64) :
    (p.push i).Right ∧ (p.push i).out = if i ∈ p.out then p.out else p.out ++ [i] := by
  by_cases hmem : i ∈ p.out
  · have hbit : ¬ p.placed &&& bit i = 0 := by
      rw [and_bit_eq_zero hi, h i hi, decide_eq_true hmem]
      exact Bool.noConfusion
    rw [push, if_neg hbit, if_pos hmem]
    exact ⟨h, rfl⟩
  have hbit : p.placed &&& bit i = 0 := by
    rw [and_bit_eq_zero hi, h i hi, decide_eq_false hmem]
  rw [push, if_pos hbit, if_neg hmem]
  refine ⟨fun j hj => ?_, rfl⟩
  rw [BitVec.getLsbD_or, getLsbD_bit hi, h j hj]
  simp

lemma Placed.foldl_push {p : Placed} (h : p.Right) (hl : ∀ i ∈ l, i < 64) :
    (l.foldl push p).Right ∧ (l.foldl push p).out = addNew p.out l := by
  induction l generalizing p with
  | nil => exact ⟨h, rfl⟩
  | cons i l ih =>
    obtain ⟨hright, hout⟩ := push_eq h (hl i mem_cons_self)
    obtain ⟨hright', hout'⟩ := ih hright fun j hj => hl j (mem_cons_of_mem _ hj)
    refine ⟨hright', hout'.trans ?_⟩
    rw [hout]
    rfl

/-! ## The parts of the list -/

variable (r : Roster)

def ups : List ℕ := (List.range r.members.length).filter fun i => r.isUp i && r.room i

def primaries : List ℕ := r.ups.filter fun i => !r.isBackup i

def backups : List ℕ := r.ups.filter r.isBackup

def eligible : List ℕ := if r.primaries = [] then r.backups else r.primaries

def opened (i : ℕ) : Bool :=
  r.room i && (decide (r.ups ≠ []) || !(List.range r.members.length).any r.isUp)

def front : List ℕ :=
  match (r.choose r.eligible).1 with
  | none => []
  | some first => r.eligible.rotate (position r.eligible first)

def listed : List ℕ :=
  addNew
    (addNew r.front (r.primaries ++ r.backups ++ (List.range r.members.length).filter r.opened))
    ((List.range r.members.length).filter fun i => !r.room i)

lemma mem_of_choose (h : (r.choose l).1 = some i) : i ∈ l := by
  rw [choose] at h
  split at h
  · cases h
  split at h
  · exact mem_of_mem_head? h
  · rcases Option.or_eq_some_iff.mp h with hturn | ⟨-, hhead⟩
    · exact mem_of_turn _ hturn
    · exact mem_of_mem_head? hhead
  rcases mem_append.mp (mem_of_minBy h) with hdrop | htake
  · exact mem_of_mem_drop hdrop
  · exact mem_of_mem_take htake

lemma choose_eq_none (h : (r.choose l).1 = none) : l = [] := by
  by_contra hne
  obtain ⟨i, l, rfl⟩ := exists_cons_of_ne_nil hne
  rw [choose, if_neg hne] at h
  split at h
  · cases h
  · exact absurd (Option.or_eq_none_iff.mp h).2 (by simp)
  have hlen := congrArg List.length (minBy_eq_none h)
  simp only [length_append, length_drop, length_take, length_cons, length_nil] at hlen
  omega

lemma position_spec {first : ℕ} (h : first ∈ l) : position l first < l.length ∧
      l.drop (position l first) = first :: l.drop (position l first + 1) := by
  rw [position]
  cases hidx : l.findIdx? (· = first) with
  | none =>
    have := findIdx?_eq_none_iff.mp hidx first h
    simp at this
  | some k =>
    obtain ⟨hk, heq, -⟩ := findIdx?_eq_some_iff_getElem.mp hidx
    rw [Option.getD_some]
    refine ⟨hk, ?_⟩
    rw [drop_eq_getElem_cons hk, of_decide_eq_true heq]

lemma rotate_position {first : ℕ} (h : first ∈ l) :
    l.rotate (position l first) = l.drop (position l first) ++ l.take (position l first) :=
  rotate_eq_drop_append_take (position_spec h).1.le

lemma nodup_ups : r.ups.Nodup := List.Nodup.filter _ nodup_range

lemma eligible_subset (h : i ∈ r.eligible) : i ∈ r.ups := by
  rw [eligible] at h
  split at h <;> exact mem_of_mem_filter h

lemma nodup_eligible : r.eligible.Nodup := by
  rw [eligible]
  split <;> exact r.nodup_ups.filter _

lemma front_eq : (match (r.choose r.eligible).1 with
      | none => []
      | some first =>
        first :: (r.eligible.drop (position r.eligible first + 1) ++
          r.eligible.take (position r.eligible first))) = r.front := by
  rw [front]
  cases hchosen : (r.choose r.eligible).1 with
  | none => rfl
  | some first =>
    have hmem := r.mem_of_choose hchosen
    show first :: _ = r.eligible.rotate _
    rw [rotate_position hmem, (position_spec hmem).2, cons_append]

lemma opened_of_mem_ups (h : i ∈ r.ups) : r.opened i := by
  have hne : r.ups ≠ [] := ne_nil_of_mem h
  obtain ⟨-, hup⟩ := mem_filter.mp h
  rw [opened, decide_eq_true hne, Bool.true_or, Bool.and_true]
  exact (Bool.and_eq_true_iff.mp hup).2

lemma orderSlow_eq : r.orderSlow = (r.listed, (r.choose r.eligible).2) := by
  have hkeep : (r.primaries ++ r.backups).filter r.opened = r.primaries ++ r.backups := by
    refine filter_eq_self.mpr fun i hi => r.opened_of_mem_ups ?_
    rcases mem_append.mp hi with hi | hi
    · exact mem_of_mem_filter hi
    · exact mem_of_mem_filter hi
  have hopened : (r.primaries ++ r.backups ++ List.range r.members.length).filter r.opened =
      r.primaries ++ r.backups ++ (List.range r.members.length).filter r.opened := by
    rw [filter_append, hkeep]
  have hfull : (List.range r.members.length).filter (fun i => decide (¬ r.room i = true)) =
      (List.range r.members.length).filter fun i => !r.room i :=
    filter_congr fun i _ => by simp
  show ((List.range r.members.length).foldl
    (fun order i => if i ∉ order ∧ ¬ r.room i then order ++ [i] else order)
    ((r.primaries ++ r.backups ++ List.range r.members.length).foldl
      (fun order i => if i ∉ order ∧ r.opened i then order ++ [i] else order) _), _) = _
  rw [foldl_add_eq_addNew, foldl_add_eq_addNew, hfull]
  simp only [Bool.decide_eq_true]
  rw [hopened, listed, ← r.front_eq]
  rfl

/-! ## The sets of `order` -/

variable {r}

lemma Sets.look_eq (capped : Bool) (s : Sets) (m : Seen × ℕ) : (s.look capped m).opened =
        (if !capped || !m.1.isFull then s.opened ||| bit m.2 else s.opened) ∧
      (s.look capped m).up =
        (if m.1.up && (!capped || !m.1.isFull) then s.up ||| bit m.2 else s.up) ∧
      (s.look capped m).alive =
        (if m.1.up && !(!capped || !m.1.isFull) then s.alive ||| bit m.2 else s.alive) ∧
      (s.look capped m).backup =
        (if m.1.spec.backup then s.backup ||| bit m.2 else s.backup) := by
  cases capped <;> cases hfull : m.1.isFull <;> cases hup : m.1.up <;>
    cases hbackup : m.1.spec.backup <;> simp [look, hfull, hup, hbackup]

lemma sets_spec (hn : r.members.length ≤ 64) (j : ℕ) :
    r.sets.opened.getLsbD j = (decide (j < r.members.length) && r.room j) ∧
      r.sets.up.getLsbD j = (decide (j < r.members.length) && (r.isUp j && r.room j)) ∧
      r.sets.alive.getLsbD j = (r.isUp j && !r.room j) ∧
      r.sets.backup.getLsbD j = r.isBackup j := by
  have hopened := getLsbD_foldl_zipIdx Sets.opened (p := fun m => !r.capped || !m.isFull)
    (fun s m => (s.look_eq r.capped m).1) (s := ⟨0, 0, 0, 0⟩) rfl hn j
  have hup := getLsbD_foldl_zipIdx Sets.up (p := fun m => m.up && (!r.capped || !m.isFull))
    (fun s m => (s.look_eq r.capped m).2.1) (s := ⟨0, 0, 0, 0⟩) rfl hn j
  have halive := getLsbD_foldl_zipIdx Sets.alive (p := fun m => m.up && !(!r.capped || !m.isFull))
    (fun s m => (s.look_eq r.capped m).2.2.1) (s := ⟨0, 0, 0, 0⟩) rfl hn j
  have hbackup := getLsbD_foldl_zipIdx Sets.backup (p := fun m => m.spec.backup)
    (fun s m => (s.look_eq r.capped m).2.2.2) (s := ⟨0, 0, 0, 0⟩) rfl hn j
  rw [sets, hopened, hup, halive, hbackup]
  cases hm : r.members[j]? with
  | none =>
    have hlen := getElem?_eq_none_iff.mp hm
    simp [isUp, isBackup, hlen]
  | some m =>
    obtain ⟨hlt, -⟩ := List.getElem?_eq_some_iff.mp hm
    simp only [isUp, isBackup, isFull, room, hm, Option.any_some, decide_eq_true hlt,
      Bool.true_and, and_self]

lemma lt_of_isUp (h : r.isUp i) : i < r.members.length := by
  by_contra hi
  rw [isUp, getElem?_eq_none (by omega)] at h
  cases h

section Fits
variable (hn : r.members.length ≤ 64)
include hn

lemma bits_up : bits r.sets.up = r.ups :=
  bits_eq_filter_of_lt hn fun j _ => by
    exact (sets_spec hn j).2.1

lemma bits_primary : bits (r.sets.up &&& ~~~ r.sets.backup) = r.primaries := by
  rw [primaries, ups, filter_filter]
  refine bits_eq_filter_of_lt hn fun j hj64 => ?_
  rw [BitVec.getLsbD_and, BitVec.getLsbD_not, (sets_spec hn j).2.1, (sets_spec hn j).2.2.2,
    decide_eq_true hj64, Bool.true_and, Bool.and_assoc, Bool.and_comm (r.isUp j && r.room j)]

lemma bits_backups : bits (r.sets.up &&& r.sets.backup) = r.backups := by
  rw [backups, ups, filter_filter]
  refine bits_eq_filter_of_lt hn fun j _ => ?_
  rw [BitVec.getLsbD_and, (sets_spec hn j).2.1, (sets_spec hn j).2.2.2, Bool.and_assoc,
    Bool.and_comm (r.isUp j && r.room j)]

lemma alive_eq_zero : r.sets.alive = 0 ↔ ∀ i, r.isUp i → r.room i := by
  constructor
  · intro hzero i hup
    have hbit := (sets_spec hn i).2.2.1
    rw [hzero, hup] at hbit
    exact (Bool.not_eq_false' _).mp (hbit.symm.trans BitVec.getLsbD_zero)
  intro hroom
  refine BitVec.eq_of_getLsbD_eq fun i _ => ?_
  rw [(sets_spec hn i).2.2.1]
  refine Eq.trans ?_ BitVec.getLsbD_zero.symm
  cases hup : r.isUp i with
  | true => rw [hroom i hup, Bool.not_true, Bool.and_false]
  | false => rw [Bool.false_and]

lemma bits_opened : bits (if r.sets.up = 0 ∧ r.sets.alive ≠ 0 then 0 else r.sets.opened) =
      (List.range r.members.length).filter r.opened := by
  have hups : r.sets.up = 0 ↔ r.ups = [] := by rw [← bits_up hn, bits_eq_nil]
  by_cases hswap : r.sets.up = 0 ∧ r.sets.alive ≠ 0
  · rw [if_pos hswap, bits_eq_nil.mpr rfl]
    refine (filter_eq_nil_iff.mpr fun i _ => ?_).symm
    obtain ⟨j, hup, -⟩ : ∃ j, r.isUp j ∧ ¬ r.room j := by
      simpa using mt (alive_eq_zero hn).mpr hswap.2
    have hany : (List.range r.members.length).any r.isUp :=
      any_eq_true.mpr ⟨j, mem_range.mpr (lt_of_isUp hup), hup⟩
    simp [opened, hups.mp hswap.1, hany]
  rw [if_neg hswap]
  refine bits_eq_filter_of_lt hn fun j _ => ?_
  have hopen : (decide (r.ups ≠ []) || !(List.range r.members.length).any r.isUp) = true := by
    by_cases hnil : r.ups = []
    · -- whoever is up has no room, and such a one is full
      have hroom : ∀ i, r.isUp i → r.room i := (alive_eq_zero hn).mp <| by
        by_contra halive
        exact hswap ⟨hups.mpr hnil, halive⟩
      have hnone : (List.range r.members.length).any r.isUp = false := by
        refine any_eq_false.mpr fun i hi hup => ?_
        have hmem : i ∈ r.ups := mem_filter.mpr ⟨hi, by rw [hup, hroom i hup]; rfl⟩
        rw [hnil] at hmem
        cases hmem
      rw [hnone, Bool.not_false, Bool.or_true]
    · rw [decide_eq_true hnil, Bool.true_or]
  rw [(sets_spec hn j).1, opened, hopen, Bool.and_true]

lemma bits_full :
    bits ((if r.members.length = 64 then BitVec.allOnes 64 else bit r.members.length - 1) &&&
      ~~~ r.sets.opened) = (List.range r.members.length).filter fun i => !r.room i := by
  refine bits_eq_filter_of_lt hn fun j hj64 => ?_
  have hall : (if r.members.length = 64 then BitVec.allOnes 64
      else bit r.members.length - 1).getLsbD j = decide (j < r.members.length) := by
    split
    · rename_i heq
      rw [BitVec.getLsbD_allOnes, heq]
    · exact getLsbD_bit_sub_one (by omega) j
  rw [BitVec.getLsbD_and, hall, BitVec.getLsbD_not, (sets_spec hn j).1, decide_eq_true hj64,
    Bool.true_and]
  by_cases hj : j < r.members.length
  · rw [decide_eq_true hj, Bool.true_and, Bool.true_and, Bool.true_and]
  · rw [decide_eq_false hj, Bool.false_and, Bool.false_and]

open Placed

lemma start_eq : (start r.eligible (r.choose r.eligible).1).Right ∧
      (start r.eligible (r.choose r.eligible).1).out = r.front := by
  have hempty : Placed.Right ⟨0, []⟩ := fun i _ => BitVec.getLsbD_zero
  rw [front]
  cases hchosen : (r.choose r.eligible).1 with
  | none => exact ⟨hempty, rfl⟩
  | some first =>
    rw [start, ← rotate_position (r.mem_of_choose hchosen)]
    have hlt : ∀ i ∈ r.eligible.rotate (position r.eligible first), i < 64 := fun i hi => by
      have hmem := mem_of_mem_filter (r.eligible_subset (mem_rotate.mp hi))
      exact (mem_range.mp hmem).trans_le hn
    obtain ⟨hright, hout⟩ := foldl_push hempty hlt
    refine ⟨hright, hout.trans ?_⟩
    rw [addNew_of_nodup (nodup_rotate.mpr r.nodup_eligible)]
    simp

lemma order_eq : r.order = (r.listed, (r.choose r.eligible).2) := by
  have heligible : bits (if r.sets.up &&& ~~~ r.sets.backup ≠ 0 then r.sets.up &&& ~~~ r.sets.backup
      else r.sets.up &&& r.sets.backup) = r.eligible := by
    have hprimary : r.sets.up &&& ~~~ r.sets.backup = 0 ↔ r.primaries = [] := by
      rw [← bits_primary hn, bits_eq_nil]
    rw [eligible]
    by_cases hnil : r.primaries = []
    · rw [if_pos hnil, if_neg (not_not.mpr (hprimary.mpr hnil)), bits_backups hn]
    · rw [if_neg hnil, if_pos (mt hprimary.mp hnil), bits_primary hn]
  rw [order]
  simp only [if_neg (Nat.not_lt.mpr hn), heligible, bits_primary hn, bits_backups hn]
  obtain ⟨hright, hout⟩ := start_eq hn
  have hopened : (if r.sets.up = 0 ∧ r.sets.alive ≠ 0 then (r.sets.opened, (0 : BitVec 64))
      else (0, r.sets.opened)).2 =
      if r.sets.up = 0 ∧ r.sets.alive ≠ 0 then 0 else r.sets.opened := apply_ite Prod.snd _ _ _
  -- whether or not the down ones are left out, what is neither in `open` nor in `down` is full
  have hunion : (if r.sets.up = 0 ∧ r.sets.alive ≠ 0 then (r.sets.opened, (0 : BitVec 64))
        else (0, r.sets.opened)).2 |||
      (if r.sets.up = 0 ∧ r.sets.alive ≠ 0 then (r.sets.opened, (0 : BitVec 64))
        else (0, r.sets.opened)).1 = r.sets.opened := by
    split
    · exact BitVec.zero_or
    · exact BitVec.or_zero
  rw [hunion, hopened, bits_opened hn, bits_full hn]
  have hlt : ∀ l : List ℕ, (∀ i ∈ l, i ∈ List.range r.members.length) → ∀ i ∈ l, i < 64 :=
    fun l hl i hi => (mem_range.mp (hl i hi)).trans_le hn
  obtain ⟨hright₁, hout₁⟩ := foldl_push hright (hlt (r.primaries ++ r.backups ++
    (List.range r.members.length).filter r.opened) fun i hi => by
      simp only [mem_append, primaries, backups, ups, mem_filter] at hi
      tauto)
  obtain ⟨-, hout₂⟩ := foldl_push hright₁ (hlt ((List.range r.members.length).filter
    fun i => !r.room i) fun i hi => mem_of_mem_filter hi)
  rw [hout₂, hout₁, hout]
  rfl

end Fits

lemma order_fst (r : Roster) : r.order.1 = r.listed := by
  by_cases hn : r.members.length ≤ 64
  · rw [order_eq hn]
  · rw [order, if_pos (by omega), orderSlow_eq]

/-! ## What the list offers -/

section Parts
variable (r)

lemma room_eq (i : ℕ) : r.room i = !r.isFull i := by
  rw [room]
  cases hcapped : r.capped with
  | true => rw [Bool.not_true, Bool.false_or]
  | false =>
    have hfull : r.isFull i = false := by
      rw [isFull]
      cases hm : r.members[i]? with
      | none => rfl
      | some m =>
        have hmax := any_eq_false.mp hcapped m (mem_of_getElem? hm)
        simp [Seen.isFull, hmax]
    rw [hfull, Bool.not_false, Bool.or_true]

lemma mem_ups : i ∈ r.ups ↔ r.isUp i ∧ ¬ r.isFull i := by
  rw [ups, mem_filter, mem_range, room_eq]
  constructor
  · rintro ⟨-, h⟩
    simpa using h
  rintro ⟨hup, hfull⟩
  exact ⟨lt_of_isUp hup, by simp [hup, hfull]⟩

def firsts : List ℕ := addNew r.front (r.primaries ++ r.backups)

def downs : List ℕ := ((List.range r.members.length).filter r.opened).filter (· ∉ r.firsts)

def fulls : List ℕ := (List.range r.members.length).filter fun i => !r.room i

lemma perm_ups : (r.primaries ++ r.backups).Perm r.ups := by
  have h := filter_append_perm (fun i => !r.isBackup i) r.ups
  simp only [Bool.not_not] at h
  exact h

lemma nodup_primaries_append_backups : (r.primaries ++ r.backups).Nodup :=
  r.perm_ups.nodup_iff.mpr r.nodup_ups

lemma front_perm_eligible : r.front.Perm r.eligible := by
  rw [front]
  split
  · rename_i hnone
    rw [r.choose_eq_none hnone]
  · exact rotate_perm _ _

lemma firsts_eq : r.firsts = r.front ++ (r.primaries ++ r.backups).filter (· ∉ r.front) :=
  addNew_of_nodup r.nodup_primaries_append_backups

lemma mem_firsts : i ∈ r.firsts ↔ r.isUp i ∧ ¬ r.isFull i := by
  rw [firsts_eq, mem_append, mem_filter, r.perm_ups.mem_iff, ← mem_ups]
  constructor
  · rintro (hfront | ⟨hup, -⟩)
    · exact r.eligible_subset (r.front_perm_eligible.mem_iff.mp hfront)
    · exact hup
  intro hup
  by_cases hfront : i ∈ r.front
  · exact .inl hfront
  · exact .inr ⟨hup, by simpa using hfront⟩

lemma nodup_firsts : r.firsts.Nodup := by
  rw [firsts_eq]
  refine List.Nodup.append (r.front_perm_eligible.nodup_iff.mpr r.nodup_eligible)
    (r.nodup_primaries_append_backups.filter _) fun i hfront hrest => ?_
  exact absurd hfront (by simpa using (mem_filter.mp hrest).2)

def Refusing : Prop := (∃ i, r.isUp i) ∧ ∀ i, r.isUp i → r.isFull i

lemma opened_iff : r.opened i ↔ ¬ r.isFull i ∧ ¬ r.Refusing := by
  have hnil : r.ups ≠ [] ↔ ∃ j, r.isUp j ∧ ¬ r.isFull j := by
    constructor
    · intro hne
      obtain ⟨j, hj⟩ := exists_mem_of_ne_nil _ hne
      exact ⟨j, r.mem_ups.mp hj⟩
    rintro ⟨j, hj⟩
    exact ne_nil_of_mem (r.mem_ups.mpr hj)
  have hany : (List.range r.members.length).any r.isUp ↔ ∃ j, r.isUp j := by
    rw [any_eq_true]
    exact exists_congr fun j =>
      ⟨fun h => h.2, fun h => ⟨mem_range.mpr (lt_of_isUp h), h⟩⟩
  have hopen : (decide (r.ups ≠ []) || !(List.range r.members.length).any r.isUp) = true ↔
      ¬ r.Refusing := by
    rw [Bool.or_eq_true, decide_eq_true_eq, hnil, Bool.not_eq_true', ← Bool.not_eq_true, hany,
      Refusing]
    push Not
    constructor
    · rintro (⟨j, hup, hroom⟩ | hnone) hsome
      · exact ⟨j, hup, by simpa using hroom⟩
      obtain ⟨j, hup⟩ := hsome
      exact absurd hup (hnone j)
    intro h
    by_cases hsome : ∃ j, r.isUp j
    · exact .inl (h hsome)
    · exact .inr (by simpa using hsome)
  rw [opened, Bool.and_eq_true, hopen, room_eq, Bool.not_eq_true', Bool.not_eq_true]

lemma mem_downs :
    i ∈ r.downs ↔ i < r.members.length ∧ ¬ r.isFull i ∧ ¬ r.isUp i ∧ ¬ r.Refusing := by
  rw [downs, mem_filter, mem_filter, mem_range, opened_iff, decide_eq_true_eq, mem_firsts]
  tauto

lemma mem_fulls : i ∈ r.fulls ↔ i < r.members.length ∧ r.isFull i := by
  rw [fulls, mem_filter, mem_range, room_eq, Bool.not_not]

lemma listed_eq : r.listed = r.firsts ++ r.downs ++ r.fulls := by
  have hnodup : ((List.range r.members.length).filter r.opened).Nodup :=
    List.Nodup.filter _ nodup_range
  have hfulls : r.fulls.Nodup := List.Nodup.filter _ nodup_range
  rw [listed, addNew_append, addNew_of_nodup hnodup]
  show addNew (r.firsts ++ r.downs) r.fulls = _
  rw [addNew_of_nodup hfulls]
  refine congrArg _ (filter_eq_self.mpr fun i hi => ?_)
  have hfull := (r.mem_fulls.mp hi).2
  rw [decide_eq_true_eq, mem_append, mem_firsts, mem_downs]
  tauto

lemma head?_firsts (h : i ∈ r.ups) :
    ∃ first, r.firsts.head? = some first ∧ first ∈ r.eligible := by
  cases hchosen : (r.choose r.eligible).1 with
  | none =>
    exfalso
    have hnil : r.primaries ++ r.backups = [] := by
      have helig := r.choose_eq_none hchosen
      rw [eligible] at helig
      split at helig
      · rename_i hprim
        rw [hprim, helig, append_nil]
      · contradiction
    have hmem := r.perm_ups.mem_iff.mpr h
    rw [hnil] at hmem
    cases hmem
  | some first =>
    have hmem := r.mem_of_choose hchosen
    have hfront : r.front = first :: (r.eligible.drop (position r.eligible first + 1) ++
        r.eligible.take (position r.eligible first)) := by
      rw [← r.front_eq, hchosen]
    exact ⟨first, by rw [firsts_eq, hfront]; rfl, hmem⟩

lemma nodup_listed : r.listed.Nodup := by
  rw [listed_eq]
  refine List.Nodup.append (List.Nodup.append r.nodup_firsts ?_ fun i hfirst hdown => ?_) ?_
    fun i hleft hfull => ?_
  · exact List.Nodup.filter _ (List.Nodup.filter _ nodup_range)
  · exact (r.mem_downs.mp hdown).2.2.1 (r.mem_firsts.mp hfirst).1
  · exact List.Nodup.filter _ nodup_range
  have hisFull := (r.mem_fulls.mp hfull).2
  rcases mem_append.mp hleft with hfirst | hdown
  · exact (r.mem_firsts.mp hfirst).2 hisFull
  · exact (r.mem_downs.mp hdown).2.1 hisFull

lemma pairwise_listed :
    r.listed.Pairwise fun i j => (r.isUp j → ¬ r.isFull j → r.isUp i ∧ ¬ r.isFull i) ∧
      (r.isFull i → r.isFull j) := by
  have hfirst : ∀ i ∈ r.firsts, ∀ j, (r.isUp j → ¬ r.isFull j → r.isUp i ∧ ¬ r.isFull i) ∧
      (r.isFull i → r.isFull j) := fun i hi j =>
    ⟨fun _ _ => r.mem_firsts.mp hi, fun hfull => absurd hfull (r.mem_firsts.mp hi).2⟩
  have hdown : ∀ i ∈ r.downs, ∀ j ∈ r.downs ++ r.fulls,
      (r.isUp j → ¬ r.isFull j → r.isUp i ∧ ¬ r.isFull i) ∧ (r.isFull i → r.isFull j) := by
    intro i hi j hj
    refine ⟨fun hup hroom => ?_, fun hfull => absurd hfull (r.mem_downs.mp hi).2.1⟩
    rcases mem_append.mp hj with hj | hj
    · exact absurd hup (r.mem_downs.mp hj).2.2.1
    · exact absurd (r.mem_fulls.mp hj).2 hroom
  have hfull : ∀ i ∈ r.fulls, ∀ j ∈ r.fulls,
      (r.isUp j → ¬ r.isFull j → r.isUp i ∧ ¬ r.isFull i) ∧ (r.isFull i → r.isFull j) :=
    fun i _ j hj => ⟨fun _ hroom => absurd (r.mem_fulls.mp hj).2 hroom,
      fun _ => (r.mem_fulls.mp hj).2⟩
  rw [listed_eq, append_assoc, pairwise_append, pairwise_append]
  refine ⟨pairwise_of_forall_mem_list fun i hi j _ => hfirst i hi j, ⟨?_, ?_, ?_⟩,
    fun i hi j _ => hfirst i hi j⟩
  · exact pairwise_of_forall_mem_list fun i hi j hj =>
      hdown i hi j (mem_append_left _ hj)
  · exact pairwise_of_forall_mem_list hfull
  · exact fun i hi j hj => hdown i hi j (mem_append_right _ hj)

lemma mem_listed : i ∈ r.listed ↔ i < r.members.length ∧ (r.isFull i ∨ ¬ r.Refusing) := by
  rw [listed_eq, mem_append, mem_append, mem_firsts, mem_downs, mem_fulls]
  have hlt : r.isUp i → i < r.members.length := lt_of_isUp
  have hnot : r.isUp i → ¬ r.isFull i → ¬ r.Refusing := fun hup hroom h => hroom (h.2 i hup)
  tauto

lemma any_members (p : Seen → Bool) : r.members.any p ↔ ∃ i : ℕ, r.members[i]?.any p := by
  rw [any_eq_true]
  constructor
  · rintro ⟨m, hm, hp⟩
    obtain ⟨i, hi⟩ := getElem?_of_mem hm
    exact ⟨i, by rw [hi]; exact hp⟩
  rintro ⟨i, hp⟩
  obtain ⟨m, hm, hp⟩ := (Option.any_eq_true _ _).mp hp
  exact ⟨m, mem_of_getElem? hm, hp⟩

lemma allFull_iff : r.allFull ↔ r.capped ∧ ∀ i ∈ r.listed, r.isFull i := by
  have hup : (r.members.any fun m => m.up) ↔ ∃ i, r.isUp i := r.any_members _
  have hopened : (r.members.any fun m => !m.isFull) ↔ ∃ i, i < r.members.length ∧ ¬ r.isFull i := by
    rw [any_members]
    refine exists_congr fun i => ?_
    cases hm : r.members[i]? with
    | none =>
      have hlen := getElem?_eq_none_iff.mp hm
      simp [hlen]
    | some m =>
      have hlt := (List.getElem?_eq_some_iff.mp hm).1
      simp only [isFull, hm, Option.any_some, hlt, true_and, Bool.not_eq_true', Bool.not_eq_true]
  have hupOpen : (r.members.any fun m => m.up && !m.isFull) ↔ ∃ i, r.isUp i ∧ ¬ r.isFull i := by
    rw [any_members]
    refine exists_congr fun i => ?_
    cases hm : r.members[i]? with
    | none => simp [isUp, hm]
    | some m => simp [isUp, isFull, hm]
  have hlisted : (∀ i ∈ r.listed, r.isFull i) ↔
      r.Refusing ∨ ∀ i < r.members.length, r.isFull i := by
    constructor
    · intro h
      by_cases href : r.Refusing
      · exact .inl href
      · exact .inr fun i hi => h i (r.mem_listed.mpr ⟨hi, .inr href⟩)
    rintro (href | hall) i hi
    · exact (r.mem_listed.mp hi).2.resolve_right (not_not.mpr href)
    · exact hall i (r.mem_listed.mp hi).1
  rw [allFull, hlisted]
  cases hcapped : r.capped with
  | false => simp
  | true =>
    rw [if_neg (by simp), Bool.and_eq_true, Bool.or_eq_true, Bool.not_eq_true', ← Bool.not_eq_true,
        hupOpen, hup, Bool.not_eq_true', ← Bool.not_eq_true, hopened]
    push Not
    constructor
    · rintro ⟨hnone, hsome | hall⟩
      · exact ⟨rfl, .inl ⟨hsome, hnone⟩⟩
      · exact ⟨rfl, .inr hall⟩
    rintro ⟨-, ⟨hsome, hnone⟩ | hall⟩
    · exact ⟨hnone, .inl hsome⟩
    · exact ⟨fun i hi => hall i (lt_of_isUp hi), .inr hall⟩

end Parts
end Roster

/-- **The bit sets list the targets as the lists do**, and leave the same value of `next`. -/
theorem order_eq_orderSlow (r : Roster) : r.order = r.orderSlow := by
  by_cases hn : r.members.length ≤ 64
  · rw [r.orderSlow_eq, Roster.order_eq hn]
  · rw [Roster.order, if_pos (by omega)]

/-- **What `order` offers.** No target twice; first one that is up with room, no backup if it can
be; full ones last. Left out are exactly the targets that are not full, while all that are up are
full. And `all_full` says whether every offered one is full, if there are caps. -/
theorem order_offers (r : Roster) : r.order.1.Nodup ∧ (∀ i, r.isUp i → ¬ r.isFull i →
      ∃ first, r.order.1.head? = some first ∧ r.isUp first ∧ ¬ r.isFull first ∧
        ((∃ j, r.isUp j ∧ ¬ r.isFull j ∧ ¬ r.isBackup j) → ¬ r.isBackup first)) ∧
    r.order.1.Pairwise (fun i j => (r.isUp j → ¬ r.isFull j → r.isUp i ∧ ¬ r.isFull i) ∧
      (r.isFull i → r.isFull j)) ∧
    (∀ i ∈ r.order.1, i < r.members.length) ∧
    (∀ i < r.members.length, i ∉ r.order.1 ↔
      ((∃ j, r.isUp j) ∧ ∀ j, r.isUp j → r.isFull j) ∧ ¬ r.isFull i) ∧
    (r.allFull ↔ r.capped ∧ ∀ i ∈ r.order.1, r.isFull i) := by
  rw [r.order_fst]
  refine ⟨r.nodup_listed, fun i hup hroom => ?_, r.pairwise_listed,
    fun i hi => (r.mem_listed.mp hi).1, fun i hi => ?_, r.allFull_iff⟩
  · obtain ⟨first, hhead, helig⟩ := r.head?_firsts (r.mem_ups.mpr ⟨hup, hroom⟩)
    obtain ⟨hfirst, hfirst'⟩ := r.mem_ups.mp (r.eligible_subset helig)
    refine ⟨first, ?_, hfirst, hfirst', ?_⟩
    · rw [r.listed_eq, append_assoc, head?_append, hhead, Option.some_or]
    rintro ⟨j, hj, hj', hprimary⟩
    have hmem : j ∈ r.primaries := mem_filter.mpr ⟨r.mem_ups.mpr ⟨hj, hj'⟩, by simpa using hprimary⟩
    rw [Roster.eligible, if_neg (ne_nil_of_mem hmem)] at helig
    simpa using (mem_filter.mp helig).2
  rw [r.mem_listed]
  show _ ↔ r.Refusing ∧ _
  tauto

end Rproxy.Balancing
