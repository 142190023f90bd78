import Rproxy.Data.Holders
import Rproxy.Limits.Limiter

/-!
# Permits are counted

The counts of a rule and of its sources are the numbers of permits that stand on them
(`World.Sound`).
-/

namespace Rproxy.Limits
open Function Bool List Option

/-! ## Sources keep their connections -/

open Holders World Nat

namespace SourceTable
variable {t : SourceTable} {key : IpAddr}

def connections (t : SourceTable) (key : IpAddr) : ℕ := (t.lookup key).getD 0

lemma lookup_setShard (t : SourceTable) (i : ℕ) (s : Sources.Shard ℕ) (key : IpAddr) :
    (t.setShard i s).lookup key = if t.shard key = i then s.map.lookup key else t.lookup key := by
  show ((Function.update t.shards i s) (t.shard key)).map.lookup key = _
  by_cases h : t.shard key = i
  · rw [if_pos h, h, update_self]
  rw [if_neg h, update_of_ne h]
  rfl

lemma connections_new (spec : PerSourceLimits) (hash : IpAddr → ℕ) (key : IpAddr) :
    (new spec hash).connections key = 0 := rfl

lemma connections_entry (t : SourceTable) (key key' : IpAddr) :
    (t.entry key).1.connections key' = t.connections key' := by
  show ((t.setShard _ _).lookup key').getD 0 = _
  rw [lookup_setShard]
  split_ifs with h
  · rw [connections, Sources.SourceTable.lookup, h]
    rcases Sources.Shard.lookup_tryWith (t.shards (t.shard key)) _ key' with
      ⟨-, hown⟩ | ⟨-, hsame | ⟨hgone, hfree⟩⟩
    · rw [hown]
      rfl
    · rw [hsame]
    · -- a source that is forgotten had no connections
      rw [hgone]
      cases hl : (t.shards (t.shard key)).map.lookup key' with
      | none => rfl
      | some active =>
        rw [hl, any_some, decide_eq_true_eq] at hfree
        exact (Nat.eq_zero_of_not_pos hfree).symm
  · rfl

lemma lookup_put (t : SourceTable) (key key' : IpAddr) (active : ℕ) :
    (t.put key active).lookup key' = if key' = key then some active else t.lookup key' := by
  rw [put, lookup_setShard, Table.lookup_insert_eq]
  by_cases h : key' = key
  · subst h
    rw [if_pos rfl, if_pos rfl, if_pos rfl]
  split_ifs with hindex
  · rw [Sources.SourceTable.lookup, hindex]
  · rfl

lemma connections_put (t : SourceTable) (key key' : IpAddr) (active : ℕ) :
    (t.put key active).connections key' = if key' = key then active else t.connections key' := by
  rw [connections, lookup_put]
  split_ifs
  · rfl
  · rfl

lemma connections_giveBack (t : SourceTable) (key key' : IpAddr) :
    (t.giveBack key).connections key' =
      if key' = key then t.connections key - 1 else t.connections key' := by
  rw [giveBack]
  split
  next active hactive =>
    have hconn : t.connections key = active := by rw [connections, hactive, getD_some]
    rw [connections_put, hconn]
  next hnone =>
    have hconn : t.connections key = 0 := by rw [connections, hnone, getD_none]
    split_ifs with h
    · rw [h, hconn]
    · rfl

lemma key_giveBack (t : SourceTable) (key : IpAddr) : (t.giveBack key).key = t.key := by
  rw [giveBack]
  split <;> rfl

lemma isSome_of_connections (h : 0 < t.connections key) : (t.lookup key).isSome := by
  rw [connections] at h
  cases hl : t.lookup key with
  | none =>
    rw [hl] at h
    exact absurd h (Nat.lt_irrefl 0)
  | some _ => rfl

lemma isSome_giveBack {key' : IpAddr} (h : (t.lookup key').isSome) :
    ((t.giveBack key).lookup key').isSome := by
  rw [giveBack]
  split
  · rw [lookup_put]
    split_ifs
    · rfl
    · exact h
  · exact h

end SourceTable

/-! ## Permits -/

variable {w : World} {p : Permit} {k : ℕ}

def World.connections (w : World) (i : ℕ) (key : IpAddr) : ℕ := (w.tables i).connections key

def Permit.counted (c : ℕ) (p : Permit) : Bool := p.limiter.counts = c && p.stage ≠ .leaving

def Permit.placed (i : ℕ) (key : IpAddr) (p : Permit) : Bool :=
  p.source.any fun s => s.table = i && s.key = key

def Permit.early (c m : ℕ) (p : Permit) : Bool := p.counted c && p.before < m

def Permit.earlyIn (i : ℕ) (key : IpAddr) (m : ℕ) (p : Permit) : Bool :=
  p.source.any fun s => s.table = i && s.key = key && s.found < m

structure Permit.Checked (p : Permit) : Prop where
  placed : p.source.isSome → p.stage = .held ∨ p.stage = .leaving
  leaving : p.stage = .leaving → p.source.isSome
  rule : p.stage = .held ∨ p.stage = .leaving →
    ∀ most, p.limiter.maxConnections = some most → p.before < most.toNat
  source : ∀ place limits most, p.source = some place → p.limiter.perSource = some limits →
    limits.maxConnections = some most → place.found < most.toNat
  table : ∀ place, p.source = some place →
    ∃ limits, p.limiter.perSource = some limits ∧ limits.table = place.table

/-- A connection held under `per_source` has a place for its client's source. -/
def Permit.Linked (tables : ℕ → SourceTable) (p : Permit) : Prop :=
  p.stage = .held → ∀ limits, p.limiter.perSource = some limits → ∃ place, p.source = some place ∧
    place.table = limits.table ∧ place.key = sourceKey p.client (tables limits.table).prefixV4
      (tables limits.table).prefixV6

structure Limiter.Made (counts tables : ℕ) (l : Limiter) : Prop where
  counts : l.counts < counts
  table : ∀ limits, l.perSource = some limits → limits.table < tables

open Permit

structure World.Sound (w : World) : Prop where
  rule : ∀ c, w.active c = w.permits.countP (counted c)
  source : ∀ i key, w.connections i key = w.permits.countP (placed i key)
  checked : ∀ p ∈ w.permits, p.Checked
  linked : ∀ p ∈ w.permits, p.Linked w.tables
  /-- Never more than `m` permits found less than `m`. -/
  ruleRoom : ∀ c m, w.permits.countP (early c m) ≤ m
  sourceRoom : ∀ i key m, w.permits.countP (earlyIn i key m) ≤ m
  limiters : ∀ l ∈ w.limiters, l.Made w.nextCount w.nextTable
  current : ∀ l, w.current = some l → l ∈ w.limiters
  permits : ∀ p ∈ w.permits, p.limiter.Made w.nextCount w.nextTable

lemma sound_new : new.Sound where
  rule _ := rfl
  source _ _ := rfl
  checked := forall_mem_nil _
  linked := forall_mem_nil _
  ruleRoom _ m := Nat.zero_le m
  sourceRoom _ _ m := Nat.zero_le m
  limiters := forall_mem_nil _
  current _ h := nomatch h
  permits := forall_mem_nil _

lemma Limiter.Made.mono {c c' t t' : ℕ} {l : Limiter} (h : l.Made c t) (hc : c ≤ c')
    (ht : t ≤ t') : l.Made c' t' :=
  ⟨h.counts.trans_le hc, fun limits hl => (h.table limits hl).trans_le ht⟩

lemma Permit.Linked.congr {tables tables' : ℕ → SourceTable} (h : p.Linked tables)
    (hkey : ∀ limits, p.limiter.perSource = some limits →
      (tables' limits.table).key = (tables limits.table).key) : p.Linked tables' := by
  intro hstage limits hlimits
  obtain ⟨place, hplace, htable, heq⟩ := h hstage limits hlimits
  exact ⟨place, hplace, htable, heq.trans (congrFun (hkey limits hlimits) p.client).symm⟩

lemma World.Sound.of_permits {w' : World} (h : w.Sound) (hpermits : w'.permits = w.permits)
    (hactive : ∀ c, w'.active c = w.active c)
    (htables : ∀ i key, w'.connections i key = w.connections i key)
    (hkey : ∀ i < w.nextTable, (w'.tables i).key = (w.tables i).key)
    (hlimiters : ∀ l ∈ w'.limiters, l.Made w'.nextCount w'.nextTable)
    (hcurrent : ∀ l, w'.current = some l → l ∈ w'.limiters) (hc : w.nextCount ≤ w'.nextCount)
    (ht : w.nextTable ≤ w'.nextTable) : w'.Sound := by
  refine ⟨fun c => ?_, fun i key => ?_, ?_, ?_, ?_, ?_, hlimiters, hcurrent, ?_⟩
  · rw [hactive, hpermits, h.rule]
  · rw [htables, hpermits, h.source]
  · rw [hpermits]
    exact h.checked
  · rw [hpermits]
    exact fun p hp => (h.linked p hp).congr fun limits hlimits =>
      hkey _ ((h.permits p hp).table limits hlimits)
  · rw [hpermits]
    exact h.ruleRoom
  · rw [hpermits]
    exact h.sourceRoom
  rw [hpermits]
  exact fun p hp => (h.permits p hp).mono hc ht

lemma connections_setTable (w : World) (i j : ℕ) (t : SourceTable) (key : IpAddr) :
    (w.setTable i t).connections j key =
      if j = i then t.connections key else w.connections j key := by
  show (Function.update w.tables i t j).connections key = _
  by_cases h : j = i
  · rw [if_pos h, h, update_self]
  rw [if_neg h, update_of_ne h]
  rfl

variable {t : SourceTable}

lemma key_setTable {i : ℕ} (ht : t.key = (w.tables i).key) (j : ℕ) :
    ((w.setTable i t).tables j).key = (w.tables j).key := by
  show (Function.update w.tables i t j).key = _
  by_cases h : j = i
  · rw [h, update_self, ht]
  · rw [update_of_ne h]

lemma World.Sound.setTable (h : w.Sound) {i : ℕ}
    (ht : ∀ key, t.connections key = w.connections i key) (hkey : t.key = (w.tables i).key) :
    (w.setTable i t).Sound := by
  refine h.of_permits rfl (fun _ => rfl) (fun j key => ?_) (fun j _ => key_setTable hkey j)
    h.limiters h.current le_rfl le_rfl
  rw [connections_setTable]
  split_ifs with hj
  · rw [hj, ht]
  · rfl

lemma made_tableFor {spec : PerSourceLimits} {i : ℕ} (h : w.Sound)
    (hi : w.tableFor spec = some i) : i < w.nextTable := by
  rw [tableFor, filter_eq_some_iff, map_eq_some_iff] at hi
  obtain ⟨⟨limits, hlimits, rfl⟩, -⟩ := hi
  obtain ⟨l, hl, hsource⟩ := bind_eq_some_iff.mp hlimits
  exact (h.limiters l (h.current l hl)).table limits hsource

lemma sound_withTable (h : w.Sound) (spec : PerSourceLimits) (hash : IpAddr → ℕ) :
    (w.withTable spec hash).Sound := by
  rw [withTable]
  split_ifs
  · exact h
  have hnone : ∀ key, w.connections w.nextTable key = 0 := by
    intro key
    rw [h.source, countP_eq_zero]
    intro p hp
    rw [placed, Option.any_eq_true]
    rintro ⟨place, hplace, heq⟩
    obtain ⟨limits, hlimits, htable⟩ := (h.checked p hp).table place hplace
    have hlt := (h.permits p hp).table limits hlimits
    rw [and_eq_true, decide_eq_true_eq] at heq
    omega
  refine h.of_permits rfl (fun _ => rfl) (fun i key => ?_)
    (fun i hi => congrArg SourceTable.key (update_of_ne hi.ne _ _))
    (fun l hl => (h.limiters l hl).mono le_rfl (le_succ _)) h.current le_rfl (le_succ _)
  show (Function.update w.tables w.nextTable _ i).connections key = _
  by_cases hi : i = w.nextTable
  · rw [hi, update_self, hnone, SourceTable.connections_new]
  rw [update_of_ne hi]
  rfl

lemma sound_withCount (h : w.Sound) : w.withCount.Sound := by
  rw [withCount]
  split_ifs
  · exact h
  have hnone : w.active w.nextCount = 0 := by
    rw [h.rule, countP_eq_zero]
    intro p hp
    have hlt := (h.permits p hp).counts
    rw [counted, and_eq_true, decide_eq_true_eq]
    omega
  refine h.of_permits rfl (fun c => ?_) (fun _ _ => rfl) (fun _ _ => rfl)
    (fun l hl => (h.limiters l hl).mono (le_succ _) le_rfl) h.current (le_succ _) le_rfl
  show Function.update w.active w.nextCount 0 c = w.active c
  by_cases hc : c = w.nextCount
  · rw [hc, update_self, hnone]
  · rw [update_of_ne hc]

lemma setLimiter_spec (w : World) (spec : LimitsSpec) (hash : IpAddr → ℕ) :
    (w.setLimiter spec hash).permits = w.permits ∧
    (w.setLimiter spec hash).nextCount =
      (if w.current.isSome then w.nextCount else w.nextCount + 1) ∧
    (w.setLimiter spec hash).nextTable = spec.perSource.elim w.nextTable fun p =>
      if (w.tableFor p).isSome then w.nextTable else w.nextTable + 1 := by
  cases hp : spec.perSource with
  | none =>
    simp only [setLimiter, hp, Option.elim, withCount]
    split_ifs <;> exact ⟨rfl, rfl, rfl⟩
  | some p =>
    simp only [setLimiter, hp, Option.elim, withCount, withTable]
    split_ifs <;> exact ⟨rfl, rfl, rfl⟩

lemma made_limiterFor (h : w.Sound) (spec : LimitsSpec) (hash : IpAddr → ℕ) :
    (w.limiterFor spec).Made (w.setLimiter spec hash).nextCount
      (w.setLimiter spec hash).nextTable := by
  constructor
  · rw [(setLimiter_spec w spec hash).2.1]
    show (w.current.map Limiter.counts).getD w.nextCount < _
    cases hl : w.current with
    | none => exact lt_succ_self _
    | some l => exact (h.limiters l (h.current l hl)).counts
  intro limits hlimits
  obtain ⟨p, hp, rfl⟩ := map_eq_some_iff.mp hlimits
  rw [(setLimiter_spec w spec hash).2.2, hp]
  show (w.tableFor p).getD w.nextTable < if (w.tableFor p).isSome then _ else _
  cases ht : w.tableFor p with
  | none => exact lt_succ_self _
  | some i => exact made_tableFor h ht

lemma sound_setLimiter (h : w.Sound) (spec : LimitsSpec) (hash : IpAddr → ℕ) :
    (w.setLimiter spec hash).Sound := by
  have hlimiters : ∀ l ∈ w.limiters,
      l.Made (w.setLimiter spec hash).nextCount (w.setLimiter spec hash).nextTable := by
    intro l hl
    refine (h.limiters l hl).mono ?_ ?_
    · rw [(setLimiter_spec w spec hash).2.1]
      split_ifs <;> omega
    rw [(setLimiter_spec w spec hash).2.2]
    cases spec.perSource with
    | none => exact le_rfl
    | some p =>
      show _ ≤ if (w.tableFor p).isSome then _ else _
      split_ifs <;> omega
  have hmade := made_limiterFor h spec hash
  -- the count and the table are there; what is left is the limiter itself
  have hready : (spec.perSource.elim w fun p => w.withTable p hash).withCount.Sound := by
    cases spec.perSource with
    | none => exact sound_withCount h
    | some p => exact sound_withCount (sound_withTable h p hash)
  refine hready.of_permits rfl (fun _ => rfl) (fun _ _ => rfl) (fun _ _ => rfl) (fun l hl => ?_)
    (fun l hl => ?_) le_rfl le_rfl
  · rcases mem_append.mp hl with hl | hl
    · exact hlimiters l hl
    rw [mem_singleton.mp hl]
    exact hmade
  cases hl
  exact mem_append.mpr (.inr (mem_singleton.mpr rfl))

/-! ## Connections -/

lemma countP_early_le (w : World) (c m : ℕ) :
    w.permits.countP (early c m) ≤ w.permits.countP (counted c) :=
  countP_mono_left fun _ _ hp => (and_eq_true _ _ ▸ hp).1

variable {key : IpAddr}

lemma placed_of_earlyIn {i m : ℕ} (h : p.earlyIn i key m) : p.placed i key := by
  obtain ⟨place, hplace, heq⟩ := (any_eq_true _ _).mp h
  rw [and_eq_true] at heq
  exact (any_eq_true _ _).mpr ⟨place, hplace, heq.1⟩

lemma countP_earlyIn_le (w : World) (i : ℕ) (key : IpAddr) (m : ℕ) :
    w.permits.countP (earlyIn i key m) ≤ w.permits.countP (placed i key) :=
  countP_mono_left fun _ _ hp => placed_of_earlyIn hp

variable {tables : ℕ → SourceTable}

lemma World.Sound.setPermit {q : Permit} {active : ℕ → ℕ}
    (h : w.Sound) (hk : w.permits[k]? = some p) (hlimiter : q.limiter = p.limiter)
    (hbefore : q.before = p.before) (hq : q.Checked)
    (hstage : q.stage = .leaving ∨ p.stage ≠ .leaving)
    (hrule : ∀ c, active c + (if p.counted c then 1 else 0) =
      w.active c + if q.counted c then 1 else 0)
    (hsource : ∀ i key, (tables i).connections key + (if p.placed i key then 1 else 0) =
      w.connections i key + if q.placed i key then 1 else 0)
    (hkey : ∀ i, (tables i).key = (w.tables i).key) (hlinked : q.Linked tables)
    (hfound : q.source = p.source ∨ p.source = none ∧
      ∀ place, q.source = some place → place.found = w.connections place.table place.key) :
    World.Sound { w with permits := w.permits.set k q, active := active, tables := tables } := by
  refine ⟨fun c => ?_, fun i key => ?_, fun r hr => ?_, fun r hr => ?_, fun c m => ?_,
    fun i key m => ?_, h.limiters, h.current, fun r hr => ?_⟩
  · have hset := countP_set_add (counted c) q hk
    have hc := hrule c
    rw [h.rule c] at hc
    show active c = (w.permits.set k q).countP _
    omega
  · have hset := countP_set_add (placed i key) q hk
    have hc := hsource i key
    rw [h.source i key] at hc
    show (tables i).connections key = (w.permits.set k q).countP _
    omega
  · rcases mem_or_eq_of_mem_set hr with hr | rfl
    · exact h.checked r hr
    · exact hq
  · rcases mem_or_eq_of_mem_set hr with hr | rfl
    · exact (h.linked r hr).congr fun _ _ => hkey _
    · exact hlinked
  · have hset := countP_set_add (early c m) q hk
    have hroom := h.ruleRoom c m
    have hearly : q.early c m → p.early c m := by
      intro he
      simp only [early, counted, and_eq_true, decide_eq_true_eq, hlimiter, hbefore] at he ⊢
      rcases hstage with hs | hs
      · exact absurd hs he.1.2
      · exact ⟨⟨he.1.1, hs⟩, he.2⟩
    show (w.permits.set k q).countP _ ≤ m
    by_cases he : q.early c m
    · rw [if_pos he, if_pos (hearly he)] at hset
      omega
    rw [if_neg he] at hset
    omega
  · have hset := countP_set_add (earlyIn i key m) q hk
    have hroom := h.sourceRoom i key m
    show (w.permits.set k q).countP _ ≤ m
    by_cases he : q.earlyIn i key m
    · rw [if_pos he] at hset
      rcases hfound with hsame | ⟨-, hnew⟩
      · have hp : p.earlyIn i key m := by rwa [earlyIn, ← hsame]
        rw [if_pos hp] at hset
        omega
      -- all who are counted on the source are no more than it found there
      obtain ⟨place, hplace, heq⟩ := (any_eq_true _ _).mp he
      simp only [and_eq_true, decide_eq_true_eq] at heq
      have hfound := hnew place hplace
      have hle := countP_earlyIn_le w i key m
      rw [heq.1.1, heq.1.2, h.source] at hfound
      omega
    · rw [if_neg he] at hset
      omega
  rcases mem_or_eq_of_mem_set hr with hr | rfl
  · exact h.permits r hr
  · exact hlimiter ▸ h.permits p (mem_of_getElem? hk)

lemma checked_of_none (hs : p.source = none) (hl : p.stage ≠ .leaving)
    (hr : p.stage = .held → ∀ most, p.limiter.maxConnections = some most → p.before < most.toNat) :
    p.Checked where
  placed h := absurd h (by rw [hs]; decide)
  leaving h := absurd h hl
  rule h := hr (h.resolve_right hl)
  source place limits most h := absurd h (by rw [hs]; nofun)
  table place h := absurd h (by rw [hs]; nofun)

lemma source_of_checking (hp : p.Checked) (hstage : p.stage = .checking) : p.source = none := by
  cases hs : p.source with
  | none => rfl
  | some place =>
    have h := hp.placed (by rw [hs]; rfl)
    rw [hstage] at h
    rcases h with h | h <;> cases h

section
variable (h : w.Sound) (hk : w.permits[k]? = some p) (hstage : p.stage = .checking)
include h hk hstage

lemma sound_settled {stage : Stage} (hl : stage ≠ .leaving)
    (hr : stage = .held → ∀ most, p.limiter.maxConnections = some most → p.before < most.toNat)
    (hnone : stage = .held → p.limiter.perSource = none) :
    (w.setPermit k { p with stage := stage }).Sound := by
  have hsource := source_of_checking (h.checked p (mem_of_getElem? hk)) hstage
  refine h.setPermit hk rfl rfl (checked_of_none hsource hl hr) (.inr (by rw [hstage]; nofun))
    (fun c => ?_) (fun _ _ => rfl) (fun _ => rfl) (fun hs limits hlimits => ?_) (.inl rfl)
  rotate_left
  · cases (hnone hs).symm.trans hlimits
  have hcounted : counted c { p with stage := stage } = p.counted c := by
    simp [counted, hstage, hl]
  rw [hcounted]

lemma sound_placed {limits : SourceLimits} (hkey : key = (w.tables limits.table).key p.client)
    (hr : ∀ most, p.limiter.maxConnections = some most → p.before < most.toNat)
    (hlimits : p.limiter.perSource = some limits)
    (ht : ∀ key', t.connections key' = w.connections limits.table key')
    (hshape : t.key = (w.tables limits.table).key)
    (hfound : ∀ most, limits.maxConnections = some most → t.connections key < most.toNat) :
    ((w.setTable limits.table (t.put key (t.connections key + 1))).setPermit k
      { p with stage := .held, source := some ⟨limits.table, key, t.connections key⟩ }).Sound := by
  have hsource := source_of_checking (h.checked p (mem_of_getElem? hk)) hstage
  have hput : (t.put key (t.connections key + 1)).key = (w.tables limits.table).key := hshape
  refine h.setPermit hk rfl rfl ?_ (.inr (by rw [hstage]; nofun)) (fun c => ?_)
    (fun i key' => ?_) (key_setTable hput) (fun _ limits' hlimits' => ?_)
    (.inr ⟨hsource, fun place hplace => ?_⟩)
  · refine ⟨fun _ => .inl rfl, fun hs => (nomatch hs), fun _ => hr, ?_, ?_⟩
    · intro place limits' most hplace hlimits' hmost
      cases hplace
      cases hlimits.symm.trans hlimits'
      exact hfound most hmost
    intro place hplace
    cases hplace
    exact ⟨limits, hlimits, rfl⟩
  · have hcounted : counted c
        { p with stage := .held, source := some ⟨limits.table, key, t.connections key⟩ } =
        p.counted c := by
      simp [counted, hstage]
    rw [hcounted]
    rfl
  · show connections (w.setTable _ _) i key' + _ = _
    have hnone : p.placed i key' = false := by rw [placed, hsource, any_none]
    rw [connections_setTable, hnone, SourceTable.connections_put, placed]
    by_cases hi : i = limits.table
    · by_cases hkey : key' = key
      · simp [hi, hkey, ht]
      · simp [hi, hkey, ht, Ne.symm hkey]
    · simp [hi, Ne.symm hi]
  · cases hlimits.symm.trans hlimits'
    exact ⟨_, rfl, rfl, hkey.trans (congrFun (key_setTable hput limits.table) p.client).symm⟩
  · cases hplace
    exact ht key

lemma sound_check (token : Bool) : (w.check k p token).Sound := by
  rw [check]
  split_ifs with hfull
  · exact sound_settled h hk hstage (by nofun) (by nofun) (by nofun)
  have hr : ∀ most, p.limiter.maxConnections = some most → p.before < most.toNat := by
    intro most hmost
    rw [hmost, any_some, decide_eq_true_eq] at hfull
    omega
  split
  next hnone => exact sound_settled h hk hstage (by nofun) (fun _ => hr) fun _ => hnone
  next limits hlimits =>
    have hentry := SourceTable.connections_entry (w.tables limits.table)
      ((w.tables limits.table).key p.client)
    have hshape : ((w.tables limits.table).entry ((w.tables limits.table).key p.client)).1.key =
      (w.tables limits.table).key := rfl
    dsimp only
    split
    next t ht =>
      rw [ht] at hentry hshape
      exact sound_settled (h.setTable hentry hshape) hk hstage (by nofun) (by nofun) (by nofun)
    next t ht =>
      rw [ht] at hentry hshape
      have hset := h.setTable hentry hshape
      split_ifs with hsource htoken
      · exact sound_settled hset hk hstage (by nofun) (by nofun) (by nofun)
      · exact sound_settled hset hk hstage (by nofun) (by nofun) (by nofun)
      refine sound_placed h hk hstage rfl hr hlimits hentry hshape fun most hmost => ?_
      rw [hmost, any_some, decide_eq_true_eq] at hsource
      exact Nat.lt_of_not_le hsource

end

lemma sound_enter {l : Limiter} (h : w.Sound) (hl : l ∈ w.limiters) (client : IpAddr) :
    World.Sound { w with
      active := Function.update w.active l.counts (w.active l.counts + 1)
      permits := w.permits ++ [⟨l, client, w.active l.counts, none, .checking⟩] } := by
  refine ⟨fun c => ?_, fun i key => ?_, fun p hp => ?_, fun p hp => ?_, fun c m => ?_,
    fun i key m => ?_, h.limiters, h.current, fun p hp => ?_⟩
  · show Function.update w.active l.counts (w.active l.counts + 1) c = _
    rw [countP_concat, ← h.rule c]
    by_cases hc : c = l.counts
    · subst hc
      simp [counted]
    rw [update_of_ne hc]
    simp [counted, Ne.symm hc]
  · rw [countP_concat, ← h.source i key]
    rfl
  · rcases mem_append.mp hp with hp | hp
    · exact h.checked p hp
    rw [mem_singleton.mp hp]
    exact checked_of_none rfl nofun nofun
  · rcases mem_append.mp hp with hp | hp
    · exact h.linked p hp
    rw [mem_singleton.mp hp]
    exact nofun
  · rw [countP_concat]
    have hroom := h.ruleRoom c m
    split_ifs with hearly
    · -- the permits so far are as many as this one found
      have hle := countP_early_le w c m
      rw [← h.rule c] at hle
      simp only [early, counted, and_eq_true, decide_eq_true_eq] at hearly
      obtain ⟨⟨rfl, -⟩, hlt⟩ := hearly
      omega
    · omega
  · rw [countP_concat]
    exact h.sourceRoom i key m
  rcases mem_append.mp hp with hp | hp
  · exact h.permits p hp
  rw [mem_singleton.mp hp]
  exact h.limiters l hl

lemma World.Sound.erasePermit {active : ℕ → ℕ} (h : w.Sound) (hk : w.permits[k]? = some p)
    (hrule : ∀ c, active c + (if p.counted c then 1 else 0) = w.active c)
    (hsource : ∀ i key, (tables i).connections key + (if p.placed i key then 1 else 0) =
      w.connections i key) (hkey : ∀ i, (tables i).key = (w.tables i).key) :
    World.Sound { w with permits := w.permits.eraseIdx k, active := active, tables := tables } := by
  have hsub : (w.permits.eraseIdx k).Sublist w.permits := eraseIdx_sublist _ _
  refine ⟨fun c => ?_, fun i key => ?_, fun r hr => h.checked r (hsub.subset hr),
    fun r hr => (h.linked r (hsub.subset hr)).congr fun _ _ => hkey _,
    fun c m => hsub.countP_le.trans (h.ruleRoom c m),
    fun i key m => hsub.countP_le.trans (h.sourceRoom i key m), h.limiters, h.current,
    fun r hr => h.permits r (hsub.subset hr)⟩
  · have herase := countP_eraseIdx_add (counted c) hk
    have hc := hrule c
    rw [h.rule c] at hc
    show active c = (w.permits.eraseIdx k).countP _
    omega
  have herase := countP_eraseIdx_add (placed i key) hk
  have hc := hsource i key
  rw [h.source i key] at hc
  show (tables i).connections key = (w.permits.eraseIdx k).countP _
  omega

lemma active_pos (h : w.Sound) (hp : p ∈ w.permits) (hstage : p.stage ≠ .leaving) :
    0 < w.active p.limiter.counts := by
  rw [h.rule]
  exact countP_pos_iff.mpr ⟨p, hp, by simp [counted, hstage]⟩

lemma connections_pos (h : w.Sound) (hp : p ∈ w.permits) {place : Place}
    (hplace : p.source = some place) : 0 < w.connections place.table place.key := by
  rw [h.source]
  exact countP_pos_iff.mpr ⟨p, hp, by simp [placed, hplace]⟩

lemma sound_drop (h : w.Sound) (hk : w.permits[k]? = some p)
    (hstage : p.stage = .held ∨ p.stage = .refused) : (w.step (.drop k)).Sound := by
  have hp := mem_of_getElem? hk
  have hleaving : p.stage ≠ .leaving := by
    rintro hs
    rw [hs] at hstage
    rcases hstage with h | h <;> cases h
  have hpos := active_pos h hp hleaving
  have hactive : ∀ c, Function.update w.active p.limiter.counts (w.active p.limiter.counts - 1) c +
      (if p.counted c then 1 else 0) = w.active c := by
    intro c
    by_cases hc : c = p.limiter.counts
    · subst hc
      simp [counted, hleaving]
      omega
    rw [update_of_ne hc]
    simp [counted, Ne.symm hc]
  simp only [step, hk, if_pos hstage]
  split_ifs with hsource
  · have hcheck := h.checked p hp
    have hheld := (hcheck.placed hsource).resolve_right hleaving
    refine h.setPermit hk rfl rfl ?_ (.inl rfl) (fun c => ?_) (fun _ _ => rfl) (fun _ => rfl)
      nofun (.inl rfl)
    · exact ⟨fun _ => .inr rfl, fun _ => hsource, fun _ => hcheck.rule (.inl hheld), hcheck.source,
        hcheck.table⟩
    have hgone : counted c { p with stage := .leaving } = false := by
      simp [counted]
    rw [hgone]
    exact hactive c
  refine h.erasePermit hk hactive (fun i key => ?_) fun _ => rfl
  have hnone : p.placed i key = false := by
    rw [placed, not_isSome_iff_eq_none.mp hsource, any_none]
  rw [hnone]
  rfl

lemma sound_leave {place : Place} (h : w.Sound) (hk : w.permits[k]? = some p)
    (hstage : p.stage = .leaving) (hplace : p.source = some place) : (w.step (.leave k)).Sound := by
  have hpos := connections_pos h (mem_of_getElem? hk) hplace
  simp only [step, hk, hstage, hplace]
  have hshape : ((w.tables place.table).giveBack place.key).key = (w.tables place.table).key :=
    SourceTable.key_giveBack _ _
  refine h.erasePermit hk (fun c => ?_) (fun i key => ?_) (key_setTable hshape)
  · have hgone : p.counted c = false := by simp [counted, hstage]
    rw [hgone]
    rfl
  show (w.setTable _ _).connections i key + _ = _
  rw [connections_setTable, SourceTable.connections_giveBack, placed, hplace, any_some]
  by_cases hi : i = place.table
  · by_cases hkey : key = place.key
    · subst hi hkey
      simp only [if_true, decide_true, Bool.and_self]
      exact Nat.sub_add_cancel hpos
    simp only [hi, hkey, Ne.symm hkey, if_true, if_false, decide_false, Bool.and_false]
    rfl
  · simp [hi, Ne.symm hi]

lemma sound_step (h : w.Sound) (act : Act) : (w.step act).Sound := by
  cases act with
  | set spec hash =>
    cases spec with
    | none =>
      exact h.of_permits rfl (fun _ => rfl) (fun _ _ => rfl) (fun _ _ => rfl) h.limiters nofun
        le_rfl le_rfl
    | some spec => exact sound_setLimiter h spec hash
  | enter i client =>
    cases hl : w.limiters[i]? with
    | none => simpa only [step, hl] using h
    | some l => simpa only [step, hl] using sound_enter h (mem_of_getElem? hl) client
  | settle k token =>
    cases hk : w.permits[k]? with
    | none => simpa only [step, hk] using h
    | some p =>
      cases hstage : p.stage with
      | checking => simpa only [step, hk, hstage] using sound_check h hk hstage token
      | held | refused | leaving => simpa only [step, hk, hstage] using h
  | drop k =>
    cases hk : w.permits[k]? with
    | none => simpa only [step, hk] using h
    | some p =>
      by_cases hstage : p.stage = .held ∨ p.stage = .refused
      · exact sound_drop h hk hstage
      · simpa only [step, hk, if_neg hstage] using h
  | leave k =>
    cases hk : w.permits[k]? with
    | none => simpa only [step, hk] using h
    | some p =>
      cases hsource : p.source with
      | none => cases hstage : p.stage <;> simpa only [step, hk, hstage, hsource] using h
      | some place =>
        cases hstage : p.stage with
        | leaving => exact sound_leave h hk hstage hsource
        | checking | held | refused => simpa only [step, hk, hstage, hsource] using h
  | packet i client =>
    cases hl : (w.limiters[i]?).bind Limiter.perSource with
    | none => simpa only [step, hl] using h
    | some limits =>
      simp only [step, hl]
      split_ifs
      · exact h.setTable (SourceTable.connections_entry _ _) rfl
      · exact h

lemma isSome_setTable {i j : ℕ} (h : 0 < w.connections j key)
    (ht : 0 < w.connections i key → (t.lookup key).isSome) :
    (((w.setTable i t).tables j).lookup key).isSome := by
  show ((update w.tables i t j).lookup key).isSome
  by_cases hj : j = i
  · subst hj
    rw [update_self]
    exact ht h
  rw [update_of_ne hj]
  exact SourceTable.isSome_of_connections h

lemma isSome_check (token : Bool) {i : ℕ} (h : 0 < w.connections i key) :
    (((w.check k p token).tables i).lookup key).isSome := by
  have hsome := SourceTable.isSome_of_connections h
  rw [check]
  split
  · exact hsome
  split
  · exact hsome
  next limits hlimits =>
    have hentry := SourceTable.connections_entry (w.tables limits.table)
      ((w.tables limits.table).key p.client) key
    dsimp only
    split
    next t ht =>
      rw [ht] at hentry
      exact isSome_setTable h fun hpos => SourceTable.isSome_of_connections (hentry ▸ hpos)
    next t ht =>
      rw [ht] at hentry
      have hleft : 0 < w.connections limits.table key → (t.lookup key).isSome := fun hpos =>
        SourceTable.isSome_of_connections (hentry ▸ hpos)
      split_ifs
      · exact isSome_setTable h hleft
      · exact isSome_setTable h hleft
      refine isSome_setTable h fun hpos => ?_
      rw [SourceTable.lookup_put]
      split_ifs
      · rfl
      · exact hleft hpos

lemma remembered_step (h : w.Sound) (act : Act) {i : ℕ} (hpos : 0 < w.connections i key) :
    (((w.step act).tables i).lookup key).isSome := by
  have hsome := SourceTable.isSome_of_connections hpos
  cases act with
  | set spec hash =>
    cases spec with
    | none => exact hsome
    | some spec =>
      -- the permits are the same, and so are the connections
      have hsource := (sound_setLimiter h spec hash).source i key
      rw [(setLimiter_spec w spec hash).1, ← h.source] at hsource
      exact SourceTable.isSome_of_connections (hpos.trans_eq hsource.symm)
  | enter j client =>
    rw [step]
    split <;> exact hsome
  | settle k token =>
    rw [step]
    split
    · split
      · exact isSome_check token hpos
      · exact hsome
    · exact hsome
  | drop k =>
    rw [step]
    split
    · split_ifs <;> exact hsome
    · exact hsome
  | leave k =>
    rw [step]
    split
    · split
      · exact isSome_setTable hpos fun hpos =>
          SourceTable.isSome_giveBack (SourceTable.isSome_of_connections hpos)
      · exact hsome
    · exact hsome
  | packet j client =>
    rw [step]
    split
    · split_ifs
      · exact isSome_setTable hpos fun hpos => SourceTable.isSome_of_connections
          ((SourceTable.connections_entry ..).symm ▸ hpos)
      · exact hsome
    · exact hsome

structure World.Exact (w : World) : Prop where
  rule : ∀ c, w.active c = w.permits.countP (counted c)
  source : ∀ i key, w.connections i key = w.permits.countP (placed i key)
  positive : ∀ p ∈ w.permits, (p.stage ≠ .leaving → 0 < w.active p.limiter.counts) ∧
    ∀ place, p.source = some place → ∃ n, (w.tables place.table).lookup place.key = some n ∧ 0 < n
  remembered : ∀ act i key n, (w.tables i).lookup key = some n → 0 < n →
    (((w.step act).tables i).lookup key).isSome
  below : ∀ p ∈ w.permits, p.stage = .held →
    (∀ most, p.limiter.maxConnections = some most → p.before < most.toNat) ∧
    ∀ place limits most, p.source = some place → p.limiter.perSource = some limits →
      limits.maxConnections = some most → place.found < most.toNat
  linked : ∀ p ∈ w.permits, p.Linked w.tables
  /-- A rule whose connections were let in under `max_connections` of at most `m` has at most
  `m`. -/
  ruleBound : ∀ c m, (∀ p ∈ w.permits, p.counted c → p.stage = .held →
      p.limiter.maxConnections.any fun most => most.toNat ≤ m) →
    w.permits.countP (fun p => p.counted c && p.stage = .held) ≤ m
  /-- So has a source under `per_source.max_connections`. -/
  sourceBound : ∀ i key m, (∀ p ∈ w.permits, p.placed i key →
      (p.limiter.perSource.bind SourceLimits.maxConnections).any fun most => most.toNat ≤ m) →
    w.permits.countP (placed i key) ≤ m

lemma World.Sound.exact (h : w.Sound) : w.Exact where
  rule := h.rule
  source := h.source
  positive p hp := by
    refine ⟨active_pos h hp, fun place hplace => ?_⟩
    have hpos := connections_pos h hp hplace
    obtain ⟨n, hn⟩ := isSome_iff_exists.mp (SourceTable.isSome_of_connections hpos)
    rw [connections, SourceTable.connections, hn] at hpos
    exact ⟨n, hn, hpos⟩
  remembered act i key n hn hpos := remembered_step h act (by rwa [connections,
    SourceTable.connections, hn])
  below p hp hstage := ⟨(h.checked p hp).rule (.inl hstage), (h.checked p hp).source⟩
  linked := h.linked
  ruleBound c m hall := by
    refine (countP_mono_left fun p hp hheld => ?_).trans (h.ruleRoom c m)
    rw [and_eq_true, decide_eq_true_eq] at hheld
    obtain ⟨most, hmost, hle⟩ := (any_eq_true _ _).mp (hall p hp hheld.1 hheld.2)
    have hlt := (h.checked p hp).rule (.inl hheld.2) most hmost
    rw [decide_eq_true_eq] at hle
    rw [early, and_eq_true, decide_eq_true_eq]
    exact ⟨hheld.1, by omega⟩
  sourceBound i key m hall := by
    refine (countP_mono_left fun p hp hplaced => ?_).trans (h.sourceRoom i key m)
    obtain ⟨most, hmost, hle⟩ := (any_eq_true _ _).mp (hall p hp hplaced)
    obtain ⟨limits, hlimits, hmost⟩ := bind_eq_some_iff.mp hmost
    obtain ⟨place, hplace, heq⟩ := (any_eq_true _ _).mp hplaced
    have hlt := (h.checked p hp).source place limits most hplace hlimits hmost
    rw [decide_eq_true_eq] at hle
    refine (any_eq_true _ _).mpr ⟨place, hplace, ?_⟩
    rw [and_eq_true, decide_eq_true_eq]
    exact ⟨heq, by omega⟩

/-- **Limits are counted exactly and enforced**, in every run of changes of the limits, connections
and drops of permits. -/
theorem limits_exact (acts : List Act) : (after step new acts).Exact :=
  World.Sound.exact (after_invariant acts sound_new fun _ act h => sound_step h act)

/-- With one connection for each source of 24 bits, the second client of a source is refused, and
a client of another is not. -/
theorem limits_exact_per_source :
    let w := after step .new [
      .set (some ⟨none, some ⟨some 24, none, some 1, none, none, none⟩⟩) fun _ => 0,
      .enter 0 (.v4 0x0A000001), .enter 0 (.v4 0x0A000002), .enter 0 (.v4 0x0A000101),
      .settle 0 true, .settle 1 true, .settle 2 true]
    w.Exact ∧ w.permits.map Permit.stage = [.held, .refused, .held] :=
  ⟨limits_exact _, by decide +kernel⟩

end Rproxy.Limits
