import Rproxy.Balance.Pool
import Rproxy.Data.Holders
import Rproxy.Rule.Plain

/-!
# Connection counts through changes of the pool

The counts that a pool knows, of its members and of the retired, are its `slots`; a new pool takes
some of them over by their places and remembers the rest.  `World.Sound` is what every step keeps;
`counts_survive_replacement` is what follows for whole runs.
-/

namespace Rproxy.Balancing
open Function List
variable {w : World} {p : Pool} {b : Building} {t : TargetSpec} {alive : ℕ → Bool} {taken : List ℕ}
variable {m : Member} {r : String × ℕ}
  {i c : ℕ}

open Member Pool

lemma mem_outside : m ∈ w.outside ↔ m ∈ w.handles ∨ m ∈ w.trying.map Prod.fst ∨ m ∈ w.leases := by
  rw [World.outside, mem_append, mem_append, or_assoc]

lemma mem_held_of_outside (h : m ∈ w.outside) : m ∈ w.held := mem_append.mpr (.inr h)

lemma mem_held_of_pool (h : m ∈ w.pool.members) : m ∈ w.held :=
  mem_append.mpr (.inl (mem_append.mpr (.inl h)))

lemma mem_held_of_building (hb : w.building = some b) (h : m ∈ b.members) : m ∈ w.held := by
  refine mem_append.mpr (.inl (mem_append.mpr (.inr ?_)))
  rwa [hb]

lemma alive_of_mem (h : m ∈ w.held) : w.alive m.active :=
  any_eq_true.mpr ⟨m, h, decide_eq_true rfl⟩

section
variable [External]

/-! ## The counts of a pool -/

def Pool.slots (p : Pool) : List (String × ℕ) :=
  p.members.map (fun m => (m.spec.remote, m.active)) ++ p.retired

lemma slots_member (h : p.members[i]? = some m) :
    p.slots[i]? = some (m.spec.remote, m.active) := by
  have hi := lt_of_getElem? h
  rw [slots, getElem?_append_left (by rwa [length_map]), getElem?_map, h, Option.map_some]

lemma slots_retired (j : ℕ) : p.slots[p.members.length + j]? = p.retired[j]? := by
  rw [slots, getElem?_append_right (by rw [length_map]; omega), length_map,
    Nat.add_sub_cancel_left]

lemma slot_of_counterFor (h : counterFor alive p t taken = some (i, c)) :
    i ∉ taken ∧ p.slots[i]? = some (t.remote, c) ∧
      ((∃ m ∈ p.members, m.active = c) ∨ alive c = true) := by
  rw [counterFor] at h
  split at h
  next m j hfind =>
    have hmem := mem_of_find?_eq_some hfind
    have hp := find?_some hfind
    rw [mem_zipIdx_iff_getElem?] at hmem
    simp only [Bool.and_eq_true, Bool.not_eq_true', contains_eq_mem, decide_eq_false_iff_not,
      decide_eq_true_eq] at hp
    cases h
    exact ⟨hp.1, hp.2 ▸ slots_member hmem, .inl ⟨m, mem_of_getElem? hmem, rfl⟩⟩
  next hfind =>
    obtain ⟨⟨⟨r, c'⟩, j⟩, hfind', heq⟩ := Option.map_eq_some_iff.mp h
    have hmem := mem_of_find?_eq_some hfind'
    have hp := find?_some hfind'
    rw [mem_zipIdx_iff_getElem?] at hmem
    simp only [Bool.and_eq_true, Bool.not_eq_true', contains_eq_mem, decide_eq_false_iff_not,
      decide_eq_true_eq] at hp
    cases heq
    exact ⟨hp.1.1, by rw [slots_retired, hmem, hp.1.2], .inr hp.2⟩

lemma counterFor_none (h : counterFor alive p t taken = none)
    (hslot : p.slots[i]? = some (t.remote, c)) (halive : alive c) : i ∈ taken := by
  by_contra hi
  rw [counterFor] at h
  split at h
  · exact absurd h (by simp)
  next hfind =>
    rw [Option.map_eq_none_iff, find?_eq_none] at h
    rw [find?_eq_none] at hfind
    rcases Nat.lt_or_ge i p.members.length with hlt | hge
    · have hm : p.members[i]? = some (p.members[i]) := getElem?_eq_getElem hlt
      rw [slots_member hm, Option.some.injEq, Prod.mk.injEq] at hslot
      have hskipped := hfind (p.members[i], i) (mem_zipIdx_iff_getElem?.mpr hm)
      exact hskipped (by simp [hi, hslot.1])
    obtain ⟨j, rfl⟩ := Nat.exists_eq_add_of_le hge
    rw [slots_retired] at hslot
    have hskipped := h ((t.remote, c), j) (mem_zipIdx_iff_getElem?.mpr hslot)
    exact hskipped (by simp [hi, halive])

lemma retiring_sublist : (retiring alive p taken).Sublist p.slots := by
  have hzip : ∀ {α β : Type} (f : α → β) (P : α × ℕ → Bool) (l : List α),
      ((l.zipIdx.filter P).map fun x => f x.1).Sublist (l.map f) := by
    intro α β f P l
    have h := (filter_sublist (p := P) (l := l.zipIdx)).map fun x => f x.1
    have hmap : l.zipIdx.map (fun x => f x.1) = l.map f := by
      rw [← zipIdx_map_fst 0 l, map_map, zipIdx_map_fst]
      rfl
    rwa [hmap] at h
  refine List.Sublist.append (hzip (fun m : Member => (m.spec.remote, m.active)) _ _) ?_
  have h := hzip id (fun x => !taken.contains (p.members.length + x.2) && alive x.1.2) p.retired
  rwa [map_id] at h

lemma mem_retiring (hslot : p.slots[i]? = some r) (hi : i ∉ taken) (halive : alive r.2) :
    r ∈ retiring alive p taken := by
  rw [retiring, mem_append]
  rcases Nat.lt_or_ge i p.members.length with hlt | hge
  · have hm : p.members[i]? = some (p.members[i]) := getElem?_eq_getElem hlt
    rw [slots_member hm] at hslot
    cases hslot
    refine .inl (mem_map.mpr ⟨(p.members[i], i), mem_filter.mpr
      ⟨mem_zipIdx_iff_getElem?.mpr hm, ?_⟩, rfl⟩)
    simp [hi]
  obtain ⟨j, rfl⟩ := Nat.exists_eq_add_of_le hge
  rw [slots_retired] at hslot
  refine .inr (mem_map.mpr ⟨(r, j), mem_filter.mpr ⟨mem_zipIdx_iff_getElem?.mpr hslot, ?_⟩, rfl⟩)
  simp [hi, halive]

lemma slot_of_mem_retiring (h : r ∈ retiring alive p taken) :
    ∃ i, p.slots[i]? = some r ∧ i ∉ taken := by
  rw [retiring, mem_append, mem_map, mem_map] at h
  rcases h with ⟨⟨m, i⟩, hmem, rfl⟩ | ⟨⟨r', j⟩, hmem, rfl⟩
  · obtain ⟨hm, hp⟩ := mem_filter.mp hmem
    exact ⟨i, slots_member (mem_zipIdx_iff_getElem?.mp hm), by simpa using hp⟩
  obtain ⟨hm, hp⟩ := mem_filter.mp hmem
  rw [mem_zipIdx_iff_getElem?] at hm
  rw [Bool.and_eq_true] at hp
  exact ⟨_, (slots_retired j).trans hm, by simpa using hp.1⟩

lemma slot_unique {j : ℕ} {r' : String × ℕ} (hnodup : (p.slots.map Prod.snd).Nodup)
    (hi : p.slots[i]? = some r) (hj : p.slots[j]? = some r') (h : r.2 = r'.2) : i = j := by
  have hi' : (p.slots.map Prod.snd)[i]? = some r.2 := by rw [getElem?_map, hi, Option.map_some]
  have hj' : (p.slots.map Prod.snd)[j]? = some r'.2 := by rw [getElem?_map, hj, Option.map_some]
  obtain ⟨hlt, -⟩ := List.getElem?_eq_some_iff.mp hi'
  exact (getElem?_inj hlt hnodup).mp (by rw [hi', hj', h])

lemma exists_slot (h : c ∈ p.slots.map Prod.snd) : ∃ (i : ℕ) (r : String), p.slots[i]? = some
    (r, c) := by
  obtain ⟨⟨r, c'⟩, hr, rfl⟩ := mem_map.mp h
  obtain ⟨i, hi⟩ := mem_iff_getElem?.mp hr
  exact ⟨i, r, hi⟩

lemma mem_slots_of_getElem? (h : p.slots[i]? = some r) : r.2 ∈ p.slots.map Prod.snd :=
  mem_map_of_mem (mem_of_getElem? h)

lemma mem_slots_of_member (h : m ∈ p.members) : (m.spec.remote, m.active) ∈ p.slots :=
  mem_append.mpr (.inl (mem_map_of_mem h))

/-- The members so far of a pool that is to replace `p` took each count they share with `p` over
from its place there, and all that were taken are theirs. -/
structure Building.Fits (b : Building) (p : Pool) : Prop where
  distinct : (b.members.map active).Nodup
  origin : ∀ m ∈ b.members, (∃ i ∈ b.taken, p.slots[i]? = some (m.spec.remote, m.active)) ∨
    m.active ∉ p.slots.map Prod.snd
  covers : ∀ i ∈ b.taken, ∃ m ∈ b.members, p.slots[i]? = some (m.spec.remote, m.active)

structure World.Sound (w : World) : Prop where
  exact : ∀ c, w.counts c = w.leases.countP fun m => m.active = c
  named : ∃ name : ℕ → String, (∀ m ∈ w.held, m.spec.remote = name m.active) ∧
    ∀ r ∈ w.pool.slots, r.1 = name r.2
  made : (∀ m ∈ w.held, m.active < w.next) ∧ ∀ r ∈ w.pool.slots, r.2 < w.next
  distinct : (w.pool.slots.map Prod.snd).Nodup
  known : ∀ m ∈ w.outside, m.active ∈ w.pool.slots.map Prod.snd
  fits : ∀ b, w.building = some b → b.Fits w.pool

lemma sound_new : World.new.Sound where
  exact _ := rfl
  named := ⟨fun _ => "", forall_mem_nil _, forall_mem_nil _⟩
  made := ⟨forall_mem_nil _, forall_mem_nil _⟩
  distinct := nodup_nil
  known := forall_mem_nil _
  fits _ h := nomatch h

lemma World.Sound.of_held {w' : World} (h : w.Sound) (hnext : w'.next = w.next)
    (hpool : w'.pool = w.pool) (hheld : ∀ m ∈ w'.held, m ∈ w.held)
    (hexact : ∀ c, w'.counts c = w'.leases.countP fun m => m.active = c)
    (hknown : ∀ m ∈ w'.outside, m.active ∈ w.pool.slots.map Prod.snd)
    (hfits : ∀ b, w'.building = some b → b.Fits w.pool) : w'.Sound := by
  obtain ⟨name, hname, hslots⟩ := h.named
  refine ⟨hexact, ⟨name, fun m hm => hname m (hheld m hm), hpool ▸ hslots⟩, ?_, ?_, ?_, ?_⟩
  · rw [hnext, hpool]
    exact ⟨fun m hm => h.made.1 m (hheld m hm), h.made.2⟩
  · rw [hpool]
    exact h.distinct
  · rw [hpool]
    exact hknown
  rw [hpool]
  exact hfits

lemma World.Sound.of_outside {w' : World} (h : w.Sound) (hnext : w'.next = w.next)
    (hpool : w'.pool = w.pool) (hbuilding : w'.building = w.building)
    (hout : ∀ m ∈ w'.outside, m ∈ w.outside ∨ m ∈ w.pool.members)
    (hexact : ∀ c, w'.counts c = w'.leases.countP fun m => m.active = c) : w'.Sound := by
  refine h.of_held hnext hpool (fun m hm => ?_) hexact (fun m hm => ?_) (hbuilding ▸ h.fits)
  · rw [World.held, hpool, hbuilding, mem_append] at hm
    rcases hm with hm | hm
    · exact mem_append.mpr (.inl hm)
    rcases hout m hm with hm | hm
    · exact mem_held_of_outside hm
    · exact mem_held_of_pool hm
  rcases hout m hm with hm | hm
  · exact h.known m hm
  · exact mem_map_of_mem (mem_slots_of_member hm)

/-! ## Steps -/

lemma sound_grant {w₀ : World} (h : w₀.Sound) (hm : m ∈ w₀.outside) (hnext : w.next = w₀.next)
    (hpool : w.pool = w₀.pool) (hbuilding : w.building = w₀.building)
    (hcounts : w.counts = w₀.counts) (hleases : w.leases = w₀.leases)
    (hout : ∀ m ∈ w.outside, m ∈ w₀.outside) : (w.grant m).Sound := by
  refine h.of_outside hnext hpool hbuilding (fun m' hm' => ?_) fun c => ?_
  · rw [mem_outside] at hm'
    rcases hm' with hm' | hm' | hm'
    · exact .inl (hout m' (mem_outside.mpr (.inl hm')))
    · exact .inl (hout m' (mem_outside.mpr (.inr (.inl hm'))))
    rcases mem_append.mp hm' with hm' | hm'
    · exact .inl (hout m' (mem_outside.mpr (.inr (.inr hm'))))
    rw [mem_singleton.mp hm']
    exact .inl hm
  have hexact := h.exact c
  show Function.update w.counts m.active (w.counts m.active + 1) c =
    (w.leases ++ [m]).countP fun m => m.active = c
  rw [Holders.countP_concat, hcounts, hleases]
  by_cases hc : c = m.active
  · subst hc
    rw [update_self, hexact, if_pos (decide_eq_true rfl)]
  · rw [update_of_ne hc, hexact, if_neg (by simpa using Ne.symm hc), Nat.add_zero]

lemma sound_release {k : ℕ} (h : w.Sound) (hk : w.leases[k]? = some m) :
    (w.step (.release k)).Sound := by
  have hstep : w.step (.release k) =
      { w with counts := Function.update w.counts m.active (w.counts m.active - 1)
               leases := w.leases.eraseIdx k } := by
    simp only [World.step, hk]
  rw [hstep]
  refine h.of_outside rfl rfl rfl (fun m' hm' => ?_) fun c => ?_
  · rw [mem_outside] at hm'
    refine .inl (mem_outside.mpr ?_)
    exact hm'.imp_right fun h => h.imp_right mem_of_mem_eraseIdx
  have hexact := h.exact c
  have herase := Holders.countP_eraseIdx_add (fun m' => decide (m'.active = c)) hk
  show Function.update w.counts m.active (w.counts m.active - 1) c =
    (w.leases.eraseIdx k).countP fun m => m.active = c
  by_cases hc : c = m.active
  · subst hc
    rw [if_pos (decide_eq_true rfl)] at herase
    rw [update_self]
    omega
  rw [if_neg (by simpa using Ne.symm hc)] at herase
  rw [update_of_ne hc]
  omega

lemma sound_moveTo {dest : Member} {k i : ℕ} (h : w.Sound) (hk : w.leases[k]? = some m)
    (hi : w.handles[i]? = some dest) : (w.step (.moveTo k i)).Sound := by
  have hdest : dest ∈ w.handles := mem_of_getElem? hi
  have hstep : w.step (.moveTo k i) =
      { w with leases := if dest.active = m.active then w.leases.set k dest else w.leases
               handles := w.handles.eraseIdx i } := by
    simp only [World.step, hk, hi]
  rw [hstep]
  refine h.of_outside rfl rfl rfl (fun m' hm' => .inl ?_) fun c => ?_
  · rw [mem_outside] at hm'
    rcases hm' with hm' | hm' | hm'
    · exact mem_outside.mpr (.inl (mem_of_mem_eraseIdx hm'))
    · exact mem_outside.mpr (.inr (.inl hm'))
    split_ifs at hm' with hsame
    · rcases mem_or_eq_of_mem_set hm' with hm' | rfl
      · exact mem_outside.mpr (.inr (.inr hm'))
      · exact mem_outside.mpr (.inl hdest)
    · exact mem_outside.mpr (.inr (.inr hm'))
  show w.counts c = (if dest.active = m.active then w.leases.set k dest else w.leases).countP
    fun m => m.active = c
  rw [h.exact c]
  split_ifs with hsame
  · -- the lease counts where it counted before
    have hset := Holders.countP_set_add (fun m' => decide (m'.active = c)) dest hk
    rw [hsame] at hset
    omega
  · rfl

lemma fits_take (hdistinct : (p.slots.map Prod.snd).Nodup) (hb : b.Fits p) (hi : i ∉ b.taken)
    (hslot : p.slots[i]? = some (t.remote, c)) :
    Building.Fits ⟨b.members ++ [⟨t, c⟩], b.taken ++ [i]⟩ p where
  distinct := by
    rw [map_append, map_singleton, ← concat_eq_append, nodup_concat]
    refine ⟨fun hc => ?_, hb.distinct⟩
    obtain ⟨m, hm, rfl⟩ := mem_map.mp hc
    rcases hb.origin m hm with ⟨j, hj, hslot'⟩ | hnone
    · exact hi (slot_unique hdistinct hslot hslot' rfl ▸ hj)
    · exact hnone (mem_slots_of_getElem? hslot)
  origin m hm := by
    rcases mem_append.mp hm with hm | hm
    · exact (hb.origin m hm).imp_left fun ⟨j, hj, h⟩ => ⟨j, mem_append.mpr (.inl hj), h⟩
    rw [mem_singleton.mp hm]
    exact .inl ⟨i, mem_append.mpr (.inr (mem_singleton.mpr rfl)), hslot⟩
  covers j hj := by
    rcases mem_append.mp hj with hj | hj
    · obtain ⟨m, hm, h⟩ := hb.covers j hj
      exact ⟨m, mem_append.mpr (.inl hm), h⟩
    rw [mem_singleton.mp hj]
    exact ⟨⟨t, c⟩, mem_append.mpr (.inr (mem_singleton.mpr rfl)), hslot⟩

lemma fits_fresh (hb : b.Fits p) (hmembers : ∀ m ∈ b.members, m.active ≠ c)
    (hslots : c ∉ p.slots.map Prod.snd) :
    Building.Fits ⟨b.members ++ [⟨t, c⟩], b.taken⟩ p where
  distinct := by
    rw [map_append, map_singleton, ← concat_eq_append, nodup_concat]
    refine ⟨fun hc => ?_, hb.distinct⟩
    obtain ⟨m, hm, heq⟩ := mem_map.mp hc
    exact hmembers m hm heq
  origin m hm := by
    rcases mem_append.mp hm with hm | hm
    · exact hb.origin m hm
    rw [mem_singleton.mp hm]
    exact .inr hslots
  covers j hj := by
    obtain ⟨m, hm, h⟩ := hb.covers j hj
    exact ⟨m, mem_append.mpr (.inl hm), h⟩

lemma sound_target (h : w.Sound) (hb : w.building = some b) (t : TargetSpec) :
    (w.addTarget b t).Sound := by
  have hfits := h.fits b hb
  obtain ⟨name, hname, hslots⟩ := h.named
  -- the members held are those before and the new one
  have hheld : ∀ {w' : World} {m₀ : Member} {taken : List ℕ} {m : Member}, m ∈ w'.held →
      w'.pool = w.pool → w'.building = some ⟨b.members ++ [m₀], taken⟩ → w'.outside = w.outside →
      m ∈ w.held ∨ m = m₀ := by
    intro w' m₀ taken m hm hpool hbuilding hout
    rw [World.held, hpool, hbuilding, hout, mem_append, mem_append] at hm
    rcases hm with (hm | hm) | hm
    · exact .inl (mem_held_of_pool hm)
    · rcases mem_append.mp hm with hm | hm
      · exact .inl (mem_held_of_building hb hm)
      · exact .inr (mem_singleton.mp hm)
    · exact .inl (mem_held_of_outside hm)
  rw [World.addTarget]
  split
  next i c hcounter =>
    obtain ⟨hi, hslot, -⟩ := slot_of_counterFor hcounter
    have hmem : (t.remote, c) ∈ w.pool.slots := mem_of_getElem? hslot
    refine ⟨h.exact, ⟨name, fun m hm => ?_, hslots⟩, ⟨fun m hm => ?_, h.made.2⟩, h.distinct,
      h.known, fun b' hb' => ?_⟩
    · rcases hheld hm rfl rfl rfl with hm | rfl
      · exact hname m hm
      · exact hslots _ hmem
    · rcases hheld hm rfl rfl rfl with hm | rfl
      · exact h.made.1 m hm
      · exact h.made.2 _ hmem
    cases hb'
    exact fits_take h.distinct hfits hi hslot
  next hcounter =>
    have hunused : w.next ∉ w.pool.slots.map Prod.snd := by
      intro hmem
      obtain ⟨r, hr, heq⟩ := mem_map.mp hmem
      have := h.made.2 r hr
      omega
    refine ⟨fun c => ?_, ⟨Function.update name w.next t.remote, fun m hm => ?_, fun r hr => ?_⟩,
      ⟨fun m hm => ?_, fun r hr => Nat.lt_succ_of_lt (h.made.2 r hr)⟩, h.distinct, h.known,
      fun b' hb' => ?_⟩
    · show Function.update w.counts w.next 0 c = w.leases.countP fun m => m.active = c
      by_cases hc : c = w.next
      · subst hc
        rw [update_self, eq_comm, countP_eq_zero]
        intro m hm
        have hlt := h.made.1 m (mem_held_of_outside (mem_outside.mpr (.inr (.inr hm))))
        simp only [decide_eq_true_eq]
        omega
      · rw [update_of_ne hc, h.exact c]
    · rcases hheld hm rfl rfl rfl with hm | rfl
      · rw [update_of_ne (h.made.1 m hm).ne, hname m hm]
      · rw [update_self]
    · rw [update_of_ne (h.made.2 r hr).ne, hslots r hr]
    · rcases hheld hm rfl rfl rfl with hm | rfl
      · exact Nat.lt_succ_of_lt (h.made.1 m hm)
      · exact Nat.lt_succ_self _
    · cases hb'
      exact fits_fresh hfits (fun m hm => (h.made.1 m (mem_held_of_building hb hm)).ne) hunused

lemma sound_replace (h : w.Sound) (hb : w.building = some b) :
    World.Sound
      { w with pool := ⟨b.members, retiring w.alive w.pool b.taken⟩, building := none } := by
  have hfits := h.fits b hb
  obtain ⟨name, hname, hslots⟩ := h.named
  have hheld : ∀ m ∈ World.held
      { w with pool := ⟨b.members, retiring w.alive w.pool b.taken⟩, building := none },
      m ∈ w.held := by
    intro m hm
    rw [World.held, mem_append, mem_append] at hm
    rcases hm with (hm | hm) | hm
    · exact mem_held_of_building hb hm
    · cases hm
    · exact mem_held_of_outside hm
  have hnew : ∀ r ∈ slots ⟨b.members, retiring w.alive w.pool b.taken⟩,
      (∃ m ∈ b.members, (m.spec.remote, m.active) = r) ∨ r ∈ w.pool.slots := by
    intro r hr
    rcases mem_append.mp hr with hr | hr
    · exact .inl (mem_map.mp hr)
    · exact .inr (retiring_sublist.subset hr)
  refine ⟨h.exact, ⟨name, fun m hm => hname m (hheld m hm), fun r hr => ?_⟩,
    ⟨fun m hm => h.made.1 m (hheld m hm), fun r hr => ?_⟩, ?_, fun m hm => ?_,
      fun _ hb' => nomatch hb'⟩
  · rcases hnew r hr with ⟨m, hm, rfl⟩ | hr
    · exact hname m (mem_held_of_building hb hm)
    · exact hslots r hr
  · rcases hnew r hr with ⟨m, hm, rfl⟩ | hr
    · exact h.made.1 m (mem_held_of_building hb hm)
    · exact h.made.2 r hr
  · have hmembers : (b.members.map fun m => (m.spec.remote, m.active)).map Prod.snd =
        b.members.map active := by
      rw [map_map]
      rfl
    rw [slots, map_append, hmembers, nodup_append]
    refine ⟨hfits.distinct, h.distinct.sublist (retiring_sublist.map _), ?_⟩
    rintro c hc _ hr rfl
    obtain ⟨m, hm, rfl⟩ := mem_map.mp hc
    obtain ⟨r, hr, heq⟩ := mem_map.mp hr
    obtain ⟨i, hslot, hi⟩ := slot_of_mem_retiring hr
    rcases hfits.origin m hm with ⟨j, hj, hslot'⟩ | hnone
    · exact hi (slot_unique h.distinct hslot hslot' heq ▸ hj)
    · exact hnone (heq ▸ mem_slots_of_getElem? hslot)
  -- the count is taken over, or it is remembered
  obtain ⟨i, r, hslot⟩ := exists_slot (h.known m hm)
  by_cases hi : i ∈ b.taken
  · obtain ⟨m', hm', hslot'⟩ := hfits.covers i hi
    have heq : (r, m.active) = (m'.spec.remote, m'.active) :=
      Option.some.inj (hslot.symm.trans hslot')
    exact mem_map.mpr ⟨(r, m.active), heq ▸ mem_slots_of_member hm', rfl⟩
  have hmem := mem_retiring hslot hi (alive_of_mem (w := w) (mem_held_of_outside hm))
  exact mem_map.mpr ⟨(r, m.active), mem_append.mpr (.inr hmem), rfl⟩

lemma sound_step (h : w.Sound) (act : Act) : (w.step act).Sound := by
  have hsame : ∀ w' : World, w'.next = w.next → w'.pool = w.pool → w'.building = w.building →
      w'.counts = w.counts → w'.leases = w.leases →
      (∀ m ∈ w'.outside, m ∈ w.outside ∨ m ∈ w.pool.members) → w'.Sound :=
    fun w' hnext hpool hbuilding hcounts hleases hout =>
      h.of_outside hnext hpool hbuilding hout fun c => by rw [hcounts, hleases, h.exact]
  have hpush : ∀ m, m ∈ w.outside ∨ m ∈ w.pool.members →
      World.Sound { w with handles := w.handles ++ [m] } := by
    refine fun m hm => hsame _ rfl rfl rfl rfl rfl fun m' hm' => ?_
    rw [mem_outside, mem_append, mem_singleton, or_assoc] at hm'
    rcases hm' with hm' | rfl | hm'
    · exact .inl (mem_outside.mpr (.inl hm'))
    · exact hm
    · exact .inl (mem_outside.mpr (.inr hm'))
  cases act with
  | install =>
    refine h.of_held rfl rfl (fun m hm => ?_) h.exact h.known fun b hb => ?_
    · simp only [World.step, World.held, Option.elim, append_nil, mem_append] at hm
      rcases hm with hm | hm
      · exact mem_held_of_pool hm
      · exact mem_held_of_outside hm
    cases hb
    exact ⟨nodup_nil, forall_mem_nil _, forall_mem_nil _⟩
  | target t =>
    cases hb : w.building with
    | none => simpa only [World.step, hb] using h
    | some b => simpa only [World.step, hb] using sound_target h hb t
  | replace =>
    cases hb : w.building with
    | none => simpa only [World.step, hb] using h
    | some b => simpa only [World.step, hb] using sound_replace h hb
  | hold i =>
    cases hm : w.pool.members[i]? with
    | none => simpa only [World.step, hm] using h
    | some m => simpa only [World.step, hm] using hpush m (.inr (mem_of_getElem? hm))
  | holdLeased k =>
    cases hm : w.leases[k]? with
    | none => simpa only [World.step, hm] using h
    | some m =>
      have hmem : m ∈ w.outside := mem_outside.mpr (.inr (.inr (mem_of_getElem? hm)))
      simpa only [World.step, hm] using hpush m (.inl hmem)
  | forget i =>
    refine hsame _ rfl rfl rfl rfl rfl fun m' hm' => .inl ?_
    rw [mem_outside] at hm' ⊢
    exact hm'.imp_left mem_of_mem_eraseIdx
  | take i =>
    cases hm : w.handles[i]? with
    | none => simpa only [World.step, hm] using h
    | some m =>
      have hmem : m ∈ w.outside := mem_outside.mpr (.inl (mem_of_getElem? hm))
      simp only [World.step, hm]
      split_ifs with hmax
      · refine sound_grant h hmem rfl rfl rfl rfl rfl fun m' hm' => ?_
        rw [mem_outside] at hm' ⊢
        exact hm'.imp_left mem_of_mem_eraseIdx
      refine hsame _ rfl rfl rfl rfl rfl fun m' hm' => .inl ?_
      rw [mem_outside, map_append, mem_append, or_assoc] at hm'
      rcases hm' with hm' | hm' | hm' | hm'
      · exact mem_outside.mpr (.inl (mem_of_mem_eraseIdx hm'))
      · exact mem_outside.mpr (.inr (.inl hm'))
      · exact mem_singleton.mp hm' ▸ hmem
      · exact mem_outside.mpr (.inr (.inr hm'))
  | attempt k spurious =>
    cases hm : w.trying[k]? with
    | none => simpa only [World.step, hm] using h
    | some call =>
      obtain ⟨m, n⟩ := call
      have hmem : m ∈ w.outside :=
        mem_outside.mpr (.inr (.inl (mem_map.mpr ⟨_, mem_of_getElem? hm, rfl⟩)))
      have herase : ∀ m', m' ∈ (w.trying.eraseIdx k).map Prod.fst → m' ∈ w.trying.map Prod.fst :=
        fun m' => fun hm' => ((eraseIdx_sublist _ _).map _).subset hm'
      simp only [World.step, hm]
      split_ifs with hfull hswap
      · refine hsame _ rfl rfl rfl rfl rfl fun m' hm' => .inl ?_
        rw [mem_outside] at hm' ⊢
        exact hm'.imp_right fun h => h.imp_left (herase m')
      · refine sound_grant h hmem rfl rfl rfl rfl rfl fun m' hm' => ?_
        rw [mem_outside] at hm' ⊢
        exact hm'.imp_right fun h => h.imp_left (herase m')
      refine hsame _ rfl rfl rfl rfl rfl fun m' hm' => .inl ?_
      rw [mem_outside] at hm'
      rcases hm' with hm' | hm' | hm'
      · exact mem_outside.mpr (.inl hm')
      · obtain ⟨call, hcall, rfl⟩ := mem_map.mp hm'
        rcases mem_or_eq_of_mem_set hcall with hcall | rfl
        · exact mem_outside.mpr (.inr (.inl (mem_map_of_mem hcall)))
        · exact hmem
      · exact mem_outside.mpr (.inr (.inr hm'))
  | release k =>
    cases hm : w.leases[k]? with
    | none => simpa only [World.step, hm] using h
    | some m => exact sound_release h hm
  | moveTo k i =>
    cases hm : w.leases[k]? with
    | none => simpa only [World.step, hm] using h
    | some m =>
      cases hi : w.handles[i]? with
      | none => simpa only [World.step, hm, hi] using h
      | some dest => exact sound_moveTo h hm hi

lemma leases_addTarget (b : Building) (t : TargetSpec) : (w.addTarget b t).leases = w.leases := by
  rw [World.addTarget]
  split <;> rfl

lemma leases_step (w : World) (act : Act) : (w.step act).leases.length ≤ w.leases.length ∨
    ∃ m, (w.step act).leases = w.leases ++ [m] ∧ (m.max ≠ 0 → w.counts m.active < m.max) := by
  cases act with
  | install => exact .inl le_rfl
  | target t =>
    refine .inl ?_
    rw [World.step]
    split
    · rw [leases_addTarget]
    · exact le_rfl
  | replace | hold i | holdLeased k =>
    refine .inl ?_
    rw [World.step]
    split <;> exact le_rfl
  | forget i => exact .inl le_rfl
  | take i =>
    rw [World.step]
    split
    next m hm =>
      split_ifs with hmax
      · exact .inr ⟨m, rfl, fun h => absurd hmax h⟩
      · exact .inl le_rfl
    · exact .inl le_rfl
  | attempt k spurious =>
    rw [World.step]
    split
    next m n hm =>
      split_ifs with hfull hswap
      · exact .inl le_rfl
      · exact .inr ⟨m, rfl, fun _ => hswap.1 ▸ Nat.lt_of_not_le hfull⟩
      · exact .inl le_rfl
    · exact .inl le_rfl
  | release k =>
    refine .inl ?_
    rw [World.step]
    split
    · exact (eraseIdx_sublist _ _).length_le
    · exact le_rfl
  | moveTo k i =>
    refine .inl ?_
    rw [World.step]
    split
    · split_ifs
      · rw [length_set]
      · exact le_rfl
    · exact le_rfl

structure World.Counted (w : World) : Prop where
  exact : ∀ c, w.counts c = w.leases.countP fun m => m.active = c
  positive : ∀ l ∈ w.leases, 0 < w.counts l.active
  room : ∀ act, (w.step act).leases.length = w.leases.length + 1 →
    ∃ m, (w.step act).leases = w.leases ++ [m] ∧ (m.max ≠ 0 → w.counts m.active < m.max)
  distinct : (w.pool.members.map active).Nodup
  /-- The pool counts an open connection on a member of its address, or remembers its count. -/
  kept : ∀ l ∈ w.leases,
    (∃ m ∈ w.pool.members, m.active = l.active ∧ m.spec.remote = l.spec.remote) ∨
      (l.spec.remote, l.active) ∈ w.pool.retired
  /-- The next target of a new pool counts apart from those before it. If an open connection to
  its address counts on none of these, the target goes on with a count of its address that is in
  use: that of the connection, if it is the only one left. -/
  carried : ∀ b t, w.building = some b → ∃ m,
    (w.step (.target t)).building.map Building.members = some (b.members ++ [m]) ∧
    m.spec = t ∧ m.active ∉ b.members.map active ∧
    ∀ l ∈ w.leases, l.spec.remote = t.remote → l.active ∉ b.members.map active →
      (t.remote, m.active) ∈ w.pool.slots ∧ w.alive m.active = true ∧
      ((∀ r ∈ w.pool.slots, r.1 = t.remote → w.alive r.2 = true →
        r.2 ∉ b.members.map active → r.2 = l.active) → m.active = l.active)

lemma World.Sound.slot_of_lease (h : w.Sound) {l : Member} (hl : l ∈ w.leases) :
    ∃ i : ℕ, w.pool.slots[i]? = some (l.spec.remote, l.active) := by
  have hout : l ∈ w.outside := mem_outside.mpr (.inr (.inr hl))
  obtain ⟨i, r, hslot⟩ := exists_slot (h.known l hout)
  obtain ⟨name, hname, hslots⟩ := h.named
  have hr : r = name l.active := hslots _ (mem_of_getElem? hslot)
  rw [hr, ← hname l (mem_held_of_outside hout)] at hslot
  exact ⟨i, hslot⟩

lemma World.Sound.counterFor_lease (h : w.Sound) (hb : w.building = some b)
    (hnone : counterFor w.alive w.pool t b.taken = none) {l : Member} (hl : l ∈ w.leases)
    (hremote : l.spec.remote = t.remote) : l.active ∈ b.members.map active := by
  obtain ⟨i, hslot⟩ := h.slot_of_lease hl
  have halive : w.alive l.active :=
    alive_of_mem (mem_held_of_outside (mem_outside.mpr (.inr (.inr hl))))
  obtain ⟨m, hm, hslot'⟩ :=
    (h.fits b hb).covers i (counterFor_none hnone (hremote ▸ hslot) halive)
  have heq := Option.some.inj (hslot'.symm.trans hslot)
  exact mem_map.mpr ⟨m, hm, congrArg Prod.snd heq⟩

lemma World.Sound.counted (h : w.Sound) : w.Counted where
  exact := h.exact
  positive l hl := by
    rw [h.exact]
    exact countP_pos_iff.mpr ⟨l, hl, decide_eq_true rfl⟩
  room act hlen := (leases_step w act).resolve_left (by omega)
  distinct := by
    have hmembers : (w.pool.members.map fun m => (m.spec.remote, m.active)).map Prod.snd =
        w.pool.members.map active := by
      rw [map_map]
      rfl
    have hnodup := h.distinct
    rw [slots, map_append, hmembers] at hnodup
    exact hnodup.of_append_left
  kept l hl := by
    obtain ⟨i, hslot⟩ := h.slot_of_lease hl
    rcases mem_append.mp (mem_of_getElem? hslot) with hmem | hmem
    · obtain ⟨m, hm, heq⟩ := mem_map.mp hmem
      exact .inl ⟨m, hm, congrArg Prod.snd heq, congrArg Prod.fst heq⟩
    · exact .inr hmem
  carried b t hb := by
    simp only [World.step, hb, World.addTarget]
    split
    next i c hcounter =>
      obtain ⟨hi, hslot, huse⟩ := slot_of_counterFor hcounter
      have hapart := (fits_take h.distinct (h.fits b hb) hi hslot).distinct
      rw [map_append, map_singleton, ← concat_eq_append, nodup_concat] at hapart
      have halive : w.alive c := by
        rcases huse with ⟨m, hm, rfl⟩ | halive
        · exact alive_of_mem (mem_held_of_pool hm)
        · exact halive
      exact ⟨⟨t, c⟩, rfl, rfl, hapart.1, fun l _ _ _ => ⟨mem_of_getElem? hslot, halive, fun honly =>
        honly (t.remote, c) (mem_of_getElem? hslot) rfl halive hapart.1⟩⟩
    next hnone =>
      refine ⟨⟨t, w.next⟩, rfl, rfl, fun hmem => ?_, fun l hl hremote hapart =>
        absurd (h.counterFor_lease hb hnone hl hremote) hapart⟩
      obtain ⟨m, hm, heq⟩ := mem_map.mp hmem
      exact (h.made.1 m (mem_held_of_building hb hm)).ne heq

/-- **Connection counts survive the replacement of the pool**, in every run of installations,
grants, drops and moves of leases, over any targets. -/
theorem counts_survive_replacement (acts : List Act) : (after World.step World.new acts).Counted :=
  World.Sound.counted (after_invariant acts sound_new fun _ act h => sound_step h act)

end

open scoped Plain

/-- A target with a connection is taken out and added back: it counts the connection, and with room
for one only it lets no other in. -/
theorem counted_when_added_back :
    let t : TargetSpec := ⟨"192.0.2.1", 80, none, false, some 1⟩
    let w := after World.step .new [.install, .target t, .replace, .hold 0, .take 0,
      .attempt 0 false, .install, .replace, .install, .target t, .replace, .hold 0, .take 0,
      .attempt 0 false]
    w.Counted ∧ w.pool = ⟨[⟨t, 0⟩], []⟩ ∧ w.counts 0 = 1 ∧ w.leases = [⟨t, 0⟩] :=
  ⟨counts_survive_replacement _, by decide +kernel⟩

end Rproxy.Balancing
