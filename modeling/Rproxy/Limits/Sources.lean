import Rproxy.Data.Table
import Rproxy.Programs.Runs
import Rproxy.Rule.Limits

/-!
# The tables of sources

A `SourceTable` remembers values by source, within a bound split over its shards; a full shard
forgets its oldest source that is not busy (`Shard.makeRoom_forgets`). `sources_bounded` is the
bound of a whole table over every run of `try_with`.
-/

namespace Rproxy
namespace Limits

def tableShards : ℕ := 16

def scan : ℕ := 64

end Limits

namespace Sources
open Function Table AList List
open Limits (scan tableShards)

structure Shard (V : Type) where
  map : Table IpAddr V
  order : List IpAddr

/-- The arguments of `try_with`, as far as the value is concerned. -/
structure Call (V : Type) where
  key : IpAddr
  new : V
  busy : V → Bool
  use : V → V

variable {V : Type}
namespace Shard

def makeRoom (busy : V → Bool) (perShard looked : ℕ) (s : Shard V) : Shard V × Bool :=
  if s.map.keys.length < perShard then (s, true)
  else if min scan s.order.length ≤ looked then (s, false)
  else
    match s.order with
    | [] => (s, true)
    | old :: rest =>
      if (s.map.lookup old).any busy then
        makeRoom busy perShard (looked + 1) { s with order := rest ++ [old] }
      else makeRoom busy perShard (looked + 1) ⟨s.map.erase old, rest⟩
termination_by scan - looked

def tryWith (perShard : ℕ) (s : Shard V) (c : Call V) : Shard V × Bool :=
  match s.map.lookup c.key with
  | some v => ({ s with map := s.map.insert c.key (c.use v) }, true)
  | none =>
    match s.makeRoom c.busy perShard 0 with
    | (s, false) => (s, false)
    | (s, true) => (⟨s.map.insert c.key (c.use c.new), s.order ++ [c.key]⟩, true)

structure Bounded (perShard : ℕ) (s : Shard V) : Prop where
  keys : s.order.Perm s.map.keys
  le : s.map.keys.length ≤ perShard

/-- The sources that are not in `s'` as in `s` are forgotten, and were not busy. -/
def Forgets (busy : V → Bool) (s s' : Shard V) : Prop :=
  ∀ k, s'.map.lookup k = s.map.lookup k ∨
    s'.map.lookup k = none ∧ ¬(s.map.lookup k).any busy = true

variable {busy : V → Bool} {perShard looked : ℕ} {s s' : Shard V}

lemma makeRoom_forgets : s.Forgets busy (s.makeRoom busy perShard looked).1 := by
  fun_induction makeRoom busy perShard looked s with
  | case1 | case2 | case3 => exact fun _ => .inl rfl
  | case4 looked s hfull hscan old rest horder hbusy ih => exact ih
  | case5 looked s hfull hscan old rest horder hbusy ih =>
    intro k
    have hk := ih k
    rw [lookup_erase_eq] at hk
    split_ifs at hk with heq
    · exact .inr ⟨hk.elim id And.left, heq ▸ hbusy⟩
    · exact hk

lemma makeRoom_spec (hper : 0 < perShard) (h : s.Bounded perShard) :
    (s.makeRoom busy perShard looked).1.Bounded perShard ∧
      ((s.makeRoom busy perShard looked).2 →
        (s.makeRoom busy perShard looked).1.map.keys.length < perShard) := by
  fun_induction makeRoom busy perShard looked s with
  | case1 looked s hroom => exact ⟨h, fun _ => hroom⟩
  | case2 looked s => exact ⟨h, nofun⟩
  | case3 looked s hfull hscan hnil =>
    -- a full shard has sources, so its order is not empty
    have hlen := h.keys.length_eq
    rw [hnil, length_nil] at hlen
    omega
  | case4 looked s hfull hscan old rest horder hbusy ih =>
    have hkeys := h.keys
    rw [horder] at hkeys
    exact ih ⟨(perm_append_singleton old rest).trans hkeys, h.le⟩
  | case5 looked s hfull hscan old rest horder hbusy ih =>
    have hkeys := h.keys.erase old
    rw [horder, erase_cons_head, ← keys_erase] at hkeys
    have hle : (s.map.erase old).keys.length ≤ perShard := by
      rw [keys_erase]
      exact (erase_sublist.length_le).trans h.le
    exact ih ⟨hkeys, hle⟩

lemma Bounded.tryWith (hper : 0 < perShard) (h : s.Bounded perShard) (c : Call V) :
    (s.tryWith perShard c).1.Bounded perShard := by
  unfold Shard.tryWith
  split
  next v hv =>
    have hkeys : (s.map.insert c.key (c.use v)).keys.Perm s.map.keys := by
      rw [keys_insert]
      exact (perm_cons_erase (lookup_isSome.mp (hv ▸ rfl))).symm
    exact ⟨h.keys.trans hkeys.symm, hkeys.length_eq.trans_le h.le⟩
  rename_i hnone
  have hspec := @makeRoom_spec _ c.busy _ 0 _ hper h
  have hf := @makeRoom_forgets _ c.busy perShard 0 s
  split
  next s' hroom =>
    rw [hroom] at hspec
    exact hspec.1
  rename_i s' hroom
  rw [hroom] at hspec hf
  obtain ⟨hb, hlt⟩ := hspec
  have hfresh : c.key ∉ s'.map.keys :=
    lookup_eq_none.mp ((hf c.key).elim (·.trans hnone) And.left)
  have hkeys : (s'.map.insert c.key (c.use c.new)).keys = c.key :: s'.map.keys := by
    rw [keys_insert, erase_of_not_mem hfresh]
  constructor
  · rw [hkeys]
    exact (perm_append_singleton c.key s'.order).trans (hb.keys.cons c.key)
  · rw [hkeys]
    exact hlt rfl

/-- What a call leaves of the sources: its own as it used it, if there was room for it, and no
other that is busy forgotten. -/
theorem lookup_tryWith (s : Shard V) (c : Call V) (k : IpAddr) :
    let s' := (s.tryWith perShard c).1
    k = c.key ∧ s'.map.lookup k = some (c.use ((s.map.lookup k).getD c.new)) ∨
      (k = c.key → s.map.lookup k = none) ∧ (s'.map.lookup k = s.map.lookup k ∨
        s'.map.lookup k = none ∧ ¬(s.map.lookup k).any c.busy = true) := by
  unfold tryWith
  split
  next v hv =>
    dsimp only
    rw [lookup_insert_eq]
    split_ifs with hk
    · exact .inl ⟨hk, by rw [hk, hv, Option.getD_some]⟩
    · exact .inr ⟨(absurd · hk), .inl rfl⟩
  rename_i hnone
  have hf := @makeRoom_forgets _ c.busy perShard 0 s
  split
  next s' hroom =>
    rw [hroom] at hf
    exact .inr ⟨(· ▸ hnone), hf k⟩
  rename_i s' hroom
  rw [hroom] at hf
  dsimp only
  rw [lookup_insert_eq]
  split_ifs with hk
  · exact .inl ⟨hk, by rw [hk, hnone, Option.getD_none]⟩
  · exact .inr ⟨(absurd · hk), hf k⟩

lemma stays_tryWith {c : Call V} {k : IpAddr} {v : V} (hk : s.map.lookup k = some v)
    (hv : c.busy v) :
    (s.tryWith perShard c).1.map.lookup k = some (if k = c.key then c.use v else v) := by
  rcases lookup_tryWith s c k with ⟨heq, hown⟩ | ⟨hne, hrest⟩
  · rw [hown, hk, if_pos heq, Option.getD_some]
  rw [if_neg fun heq => Option.some_ne_none v (hk.symm.trans (hne heq))]
  exact hrest.elim (·.trans hk) fun hgone => absurd (hk ▸ hv) hgone.2

end Shard

structure SourceTable (V : Type) where
  shards : ℕ → Shard V
  count : ℕ
  perShard : ℕ
  hash : IpAddr → ℕ

namespace SourceTable

def new (most : ℕ) (hash : IpAddr → ℕ) : SourceTable V :=
  let n := min tableShards most
  ⟨fun _ => ⟨∅, []⟩, n, (most + n - 1) / n, hash⟩

def shard (t : SourceTable V) (key : IpAddr) : ℕ := t.hash key % t.count

def tryWith (t : SourceTable V) (c : Call V) : SourceTable V :=
  { t with shards := Function.update t.shards (t.shard c.key)
             ((t.shards (t.shard c.key)).tryWith t.perShard c).1 }

def lookup (t : SourceTable V) (key : IpAddr) : Option V := (t.shards (t.shard key)).map.lookup key

def len (t : SourceTable V) : ℕ :=
  ((List.range t.count).map fun i => (t.shards i).map.keys.length).sum

structure Bounded (n perShard : ℕ) (t : SourceTable V) : Prop where
  count : t.count = n
  shards : ∀ i, (t.shards i).Bounded perShard
  perShard : t.perShard = perShard

variable {n perShard : ℕ} {t : SourceTable V}

lemma Bounded.tryWith (hper : 0 < perShard) (h : t.Bounded n perShard) (c : Call V) :
    (t.tryWith c).Bounded n perShard where
  count := h.count
  perShard := h.perShard
  shards i := by
    simp only [SourceTable.tryWith, update_apply, h.perShard]
    split
    · exact (h.shards _).tryWith hper c
    · exact h.shards i

lemma Bounded.len_le (h : t.Bounded n perShard) : t.len ≤ n * perShard := by
  have hle := sum_le_card_nsmul ((List.range t.count).map fun i => (t.shards i).map.keys.length)
    perShard fun x hx => by
      obtain ⟨i, -, rfl⟩ := mem_map.mp hx
      exact (h.shards i).le
  rwa [length_map, length_range, nsmul_eq_mul, Nat.cast_id, ← len, h.count] at hle

/-- **Source tables stay bounded where the bound divides evenly.** After every run of `try_with` the
table remembers at most `max_sources` sources, if the shards share that number evenly; the order of
each shard has the keys of its map, each once; and no busy source is forgotten. -/
theorem sources_bounded (most : ℕ) (hmost : 1 ≤ most) (hash : IpAddr → ℕ) (calls : List (Call V)) :
    let t := after tryWith (.new most hash) calls
    (min tableShards most ∣ most → t.len ≤ most) ∧
    (∀ i, (t.shards i).order.Perm (t.shards i).map.keys ∧ (t.shards i).order.Nodup) ∧
    ∀ (c : Call V) key v, t.lookup key = some v → c.busy v = true →
      (t.tryWith c).lookup key = some (if key = c.key then c.use v else v) := by
  have hpos : 0 < min tableShards most := lt_min (by decide) hmost
  have hper : 0 < (most + min tableShards most - 1) / min tableShards most :=
    Nat.div_pos (by omega) hpos
  have hbound : (after tryWith (.new most hash) calls : SourceTable V).Bounded
      (min tableShards most) ((most + min tableShards most - 1) / min tableShards most) :=
    after_invariant calls ⟨rfl, fun _ => ⟨.refl _, Nat.zero_le _⟩, rfl⟩ fun _ c h =>
      h.tryWith hper c
  refine ⟨fun hdvd => ?_, fun i => ⟨(hbound.shards i).keys, ?_⟩, fun c key v hkey hbusy => ?_⟩
  · obtain ⟨q, hq⟩ := hdvd
    have hlen := hbound.len_le
    have hround : (most + min tableShards most - 1) / min tableShards most = q := by
      generalize min tableShards most = n at hq hpos
      rw [hq, Nat.add_sub_assoc hpos, Nat.mul_add_div hpos,
        Nat.div_eq_of_lt (Nat.sub_lt hpos Nat.one_pos), Nat.add_zero]
    rwa [hround, ← hq] at hlen
  · exact (hbound.shards i).keys.nodup_iff.mpr (keys_nodup _)
  generalize after tryWith (.new most hash) calls = t at hkey
  change (Function.update t.shards (t.shard c.key) _ (t.shard key)).map.lookup key = _
  by_cases heq : t.shard key = t.shard c.key
  · rw [← heq, update_self]
    exact Shard.stays_tryWith hkey hbusy
  rw [update_of_ne heq, if_neg (mt (congrArg t.shard) heq)]
  exact hkey

end SourceTable

def plainCall (k : ℕ) : Call Unit := ⟨.v4 (BitVec.ofNat 32 k), (), fun _ => false, id⟩

def plainHash : IpAddr → ℕ
  | .v4 bits => bits.toNat
  | .v6 bits => bits.toNat

open SourceTable

/-- Of at most 17 sources, 18 are remembered: each of the 16 shards has room for two. -/
theorem eighteen_remembered :
    (after tryWith (.new 17 plainHash) ((List.range 18).map plainCall)).len = 18 := by
  decide +kernel

theorem thirty_two_remembered :
    (after tryWith (.new 32 plainHash) ((List.range 40).map plainCall)).len ≤ 32 :=
  (sources_bounded 32 (by decide) plainHash _).1 (by decide)

end Sources
end Rproxy
