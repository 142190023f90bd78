import Rproxy.L7.Service

/-!
# What `Service::pick` gives

A request is refused only if no server may take it, except that a service whose servers are all
ejected is refused by two of the three balances: the fall-back of `pick` is reached by round robin
only.
-/

namespace Rproxy.Upstream
open List Turns
namespace Service
variable {s : Service}

lemma usable_eq {v : Server} (hv : v ∈ s.servers) : s.usable v = v.isOpen := by
  rw [usable]
  split
  · rfl
  rename_i hcapped
  have hmax := any_eq_false.mp (Bool.eq_false_iff.mpr hcapped) v hv
  have hfull : v.isFull = false := by
    simp [Server.isFull, hmax]
  rw [Server.isOpen, hfull, Bool.not_false, Bool.and_true]

lemma usableAt_iff {i : ℕ} : s.usableAt i ↔ ∃ v, s.servers[i]? = some v ∧ v.isOpen := by
  rw [usableAt, Option.any_eq_true]
  refine exists_congr fun v => and_congr_right fun hv => ?_
  rw [usable_eq (mem_of_getElem? hv)]

lemma findIdx?_spec {α : Type} (l : List α) (p : α → Bool) :
    (∃ i a, l.findIdx? p = some i ∧ l[i]? = some a ∧ p a) ∨
      (l.findIdx? p = none ∧ ∀ a ∈ l, ¬ p a) := by
  cases h : l.findIdx? p with
  | none => exact .inr ⟨rfl, fun a ha => by simp [findIdx?_eq_none_iff.mp h a ha]⟩
  | some i =>
    obtain ⟨hi, hp, -⟩ := findIdx?_eq_some_iff_getElem.mp h
    exact .inl ⟨i, l[i], rfl, getElem?_eq_getElem hi, hp⟩

lemma scan_spec (s : Service) : (∃ i, s.servers.findIdx? s.usable = some i ∧ s.usableAt i) ∨
      (s.servers.findIdx? s.usable = none ∧ ∀ v ∈ s.servers, ¬ v.isOpen) := by
  rcases findIdx?_spec s.servers s.usable with ⟨i, v, hi, hv, husable⟩ | ⟨hnone, hall⟩
  · exact .inl ⟨i, hi, by rw [usableAt, hv]; exact husable⟩
  · exact .inr ⟨hnone, fun v hv => by rw [← usable_eq hv]; exact hall v hv⟩

lemma usableAt_of_draws {k : ℕ} {next : UInt64} {i : ℕ} (h : (s.draws k next).1 = some i) :
    s.usableAt i := by
  induction k generalizing next with
  | zero => cases h
  | succ k ih =>
    rw [draws] at h
    split at h
    · split at h
      · rename_i husable
        rw [← Option.some.inj h]
        exact husable
      · exact ih h
    · exact ih h

lemma draw_spec (s : Service) (next : UInt64) : (∃ i, (s.draw next).1 = some i ∧ s.usableAt i) ∨
      ((s.draw next).1 = none ∧ ∀ v ∈ s.servers, ¬ v.isOpen) := by
  rw [draw]
  split
  · rename_i i next' hdraws
    exact .inl ⟨i, rfl, usableAt_of_draws (congrArg Prod.fst hdraws)⟩
  · exact s.scan_spec

/-! ## What is picked -/

lemma stuck_spec (s : Service) (sticky : Option String) :
    (∃ i v, s.stuck sticky = some i ∧ s.servers[i]? = some v ∧ v.isOpen ∧ sticky = some v.id) ∨
      (s.stuck sticky = none ∧ ∀ v ∈ s.servers, v.isOpen → sticky ≠ some v.id) := by
  cases sticky with
  | none => exact .inr ⟨rfl, fun v _ _ => nofun⟩
  | some id =>
    have hspec := findIdx?_spec s.servers fun v => v.id = id ∧ s.usable v
    rcases hspec with ⟨i, v, hi, hv, hp⟩ | ⟨hnone, hall⟩
    · obtain ⟨hid, husable⟩ := of_decide_eq_true hp
      rw [usable_eq (mem_of_getElem? hv)] at husable
      exact .inl ⟨i, v, hi, hv, husable, congrArg some hid.symm⟩
    refine .inr ⟨hnone, fun v hv hopen heq => ?_⟩
    refine hall v hv (decide_eq_true ⟨(Option.some.inj heq).symm, ?_⟩)
    rw [usable_eq hv]
    exact hopen

def Good (s : Service) (i : ℕ) : Prop :=
  ∃ v, s.servers[i]? = some v ∧ ((∃ u ∈ s.servers, u.isOpen) → v.isOpen)

lemma good_of_usableAt {i : ℕ} (h : s.usableAt i) :
    s.Good i ∧ (s.balance = .roundRobin ∨ ∃ u ∈ s.servers, u.isOpen) := by
  obtain ⟨v, hv, hopen⟩ := usableAt_iff.mp h
  exact ⟨⟨v, hv, fun _ => hopen⟩, .inr ⟨v, mem_of_getElem? hv, hopen⟩⟩

lemma pick_of_not_stuck {sticky : Option String} (hstuck : s.stuck sticky = none)
    (next : UInt64) :
    (∃ i, (s.pick sticky next).1 = some i ∧ s.Good i ∧
        (s.balance = .roundRobin ∨ ∃ u ∈ s.servers, u.isOpen)) ∨
      ((s.pick sticky next).1 = none ∧ (∀ v ∈ s.servers, ¬ v.isOpen) ∧
        (s.balance = .roundRobin → ∀ v ∈ s.servers, ¬ (v.up ∧ ¬ v.isFull))) := by
  rw [pick, hstuck]
  cases hbalance : s.balance with
  | failover =>
    rcases s.scan_spec with ⟨i, hi, husable⟩ | ⟨hnone, hall⟩
    · exact .inl ⟨i, hi, hbalance ▸ good_of_usableAt husable⟩
    · exact .inr ⟨hnone, hall, nofun⟩
  | leastConn =>
    simp only
    split
    · rename_i hup
      refine .inr ⟨rfl, fun v hv hopen => ?_, nofun⟩
      obtain ⟨i, hi⟩ := getElem?_of_mem hv
      have hmem : i ∈ (List.range s.servers.length).filter s.usableAt :=
        List.mem_filter.mpr ⟨List.mem_range.mpr (List.getElem?_eq_some_iff.mp hi).1,
          usableAt_iff.mpr ⟨v, hi, hopen⟩⟩
      rw [hup] at hmem
      cases hmem
    rename_i hup
    obtain ⟨up, hupeq⟩ : ∃ up, (List.range s.servers.length).filter s.usableAt = up := ⟨_, rfl⟩
    rw [hupeq] at hup ⊢
    cases hmin : minBy s.heavier
        (up.drop (next.toNat % up.length) ++ up.take (next.toNat % up.length)) with
    | none =>
      have hlen := congrArg List.length (minBy_eq_none hmin)
      have hpos := length_pos_iff.mpr hup
      simp only [length_append, length_drop, length_take, length_nil] at hlen
      omega
    | some i =>
      have hmem : i ∈ up := by
        rcases mem_append.mp (mem_of_minBy hmin) with h | h
        · exact mem_of_mem_drop h
        · exact mem_of_mem_take h
      exact .inl ⟨i, rfl, hbalance ▸ good_of_usableAt (mem_filter.mp (hupeq ▸ hmem)).2⟩
  | roundRobin =>
    dsimp only
    rcases s.draw_spec next with ⟨i, hi, husable⟩ | ⟨hnone, hall⟩
    · exact .inl ⟨i, by rw [hi, Option.some_or], hbalance ▸ good_of_usableAt husable⟩
    rw [hnone]
    rcases findIdx?_spec s.servers fun v => v.up && !(s.capped && v.isFull) with
      ⟨i, v, hi, hv, -⟩ | ⟨hnone', hall'⟩
    · exact .inl ⟨i, hi, ⟨v, hv, fun ⟨u, hu, hopen⟩ => absurd hopen (hall u hu)⟩, .inl rfl⟩
    refine .inr ⟨hnone', hall, fun _ v hv ⟨hup, hroom⟩ => hall' v hv ?_⟩
    simp [hup, hroom]

/-- A request is refused only if no server that is up has room; the server that is picked may take
it if some may, and is one that the cookie names if such a one may. -/
def Tries (s : Service) (sticky : Option String) (next : UInt64) : Prop :=
  ((s.pick sticky next).1 = none → ∀ v ∈ s.servers, ¬ (v.up ∧ ¬ v.isFull)) ∧
  (∀ i, (s.pick sticky next).1 = some i →
    ∃ v, s.servers[i]? = some v ∧ ((∃ u ∈ s.servers, u.isOpen) → v.isOpen)) ∧
  ∀ u ∈ s.servers, u.isOpen → sticky = some u.id →
    ∃ i v, (s.pick sticky next).1 = some i ∧ s.servers[i]? = some v ∧ v.isOpen ∧ v.id = u.id

end Service

/-- **`pick` refuses no request that a server may be tried for, but for ejected servers.** Round
robin always tries, another balance unless every server that is up with room is ejected. -/
theorem pick_tries_iff (s : Service) (sticky : Option String) (next : UInt64) :
    s.Tries sticky next ↔
      s.balance = .roundRobin ∨ (∃ v ∈ s.servers, v.up ∧ ¬ v.ejected ∧ ¬ v.isFull) ∨
        ∀ v ∈ s.servers, ¬ (v.up ∧ ¬ v.isFull) := by
  have hopen : ∀ v : Server, v.isOpen ↔ v.up ∧ ¬ v.ejected ∧ ¬ v.isFull := by
    simp [Server.isOpen, Server.isUp, and_assoc]
  simp only [← hopen]
  rcases s.stuck_spec sticky with ⟨i, v, hstuck, hv, hvopen, rfl⟩ | ⟨hstuck, hnamed⟩
  · -- the cookie's server is there
    have hpick : (s.pick (some v.id) next).1 = some i := by rw [Service.pick, hstuck]
    refine iff_of_true ⟨fun hnone => ?_, fun j hj => ?_, fun u hu huopen hid => ?_⟩
      (.inr (.inl ⟨v, mem_of_getElem? hv, hvopen⟩))
    · rw [hpick] at hnone
      cases hnone
    · obtain rfl : i = j := Option.some.inj (hpick.symm.trans hj)
      exact ⟨v, hv, fun _ => hvopen⟩
    · exact ⟨i, v, hpick, hv, hvopen, Option.some.inj hid⟩
  have hcookie : ∀ u ∈ s.servers, u.isOpen → sticky = some u.id →
      ∃ i v, (s.pick sticky next).1 = some i ∧ s.servers[i]? = some v ∧ v.isOpen ∧ v.id = u.id :=
    fun u hu huopen hid => absurd hid (hnamed u hu huopen)
  rcases Service.pick_of_not_stuck hstuck next with ⟨i, hi, hgood, hsome⟩ | ⟨hnone, hall, hround⟩
  · refine iff_of_true ⟨fun hnone => ?_, fun j hj => ?_, hcookie⟩ (hsome.imp_right .inl)
    · rw [hi] at hnone
      cases hnone
    obtain rfl : i = j := Option.some.inj (hi.symm.trans hj)
    exact hgood
  have hnot : ∀ j, (s.pick sticky next).1 ≠ some j := fun j hj => by
    rw [hnone] at hj
    cases hj
  constructor
  · exact fun htries => .inr (.inr (htries.1 hnone))
  rintro (hbalance | ⟨v, hv, hvopen⟩ | hrefused)
  · exact ⟨fun _ => hround hbalance, fun j hj => absurd hj (hnot j), hcookie⟩
  · exact absurd hvopen (hall v hv)
  · exact ⟨fun _ => hrefused, fun j hj => absurd hj (hnot j), hcookie⟩

def ejectedFailover : Service :=
  ⟨.failover, [⟨"a", 1, 0, 0, true, true, Nat.one_pos⟩], cons_ne_nil _ _⟩

/-- It refuses every request, although its server is up and has room. -/
theorem refused_all_ejected :
    (ejectedFailover.pick none 0).1 = none ∧ ¬ ejectedFailover.Tries none 0 := by
  refine ⟨by decide, fun htries => ?_⟩
  exact htries.1 (by decide) _ mem_cons_self (by decide)

end Rproxy.Upstream
