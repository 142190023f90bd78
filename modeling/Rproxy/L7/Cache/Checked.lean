import Rproxy.Data.Total
import Rproxy.L7.Cache.Requests

/-!
# The store with checked subtractions

The functions of the store again, where `none` stands for a subtraction that would go below zero.
-/

namespace Rproxy.Cache
open List Option Ledger
namespace Ledger

/-! ## The checked functions -/

variable (l : Ledger)

def free? (n : Nat) : Option Ledger :=
  if n ≤ l.store.memory ∧ n ≤ l.budget.used then some (l.free n) else none

def take? (key : Key) : Option Ledger :=
  match l.store.map.lookup key with
  | none => some l
  | some slot =>
    match slot.entry with
    | some e => ((l.emptySlot key slot).unorder e.seq).free? e.size
    | none => some (l.emptySlot key slot)

def takeOldest? : Option Ledger :=
  match l.store.order with
  | [] => some l
  | (seq, key) :: _ => (l.take? key).map fun l => l.unorder seq

def dropPasses? (gone : List (Key × Pass)) : Option Ledger :=
  let freed := (gone.map fun p => p.2.size).sum
  if freed ≤ l.store.passMemory ∧ freed ≤ l.store.memory ∧ freed ≤ l.budget.used then
    some (l.dropPasses gone)
  else none

def sweep? (now : Nat) : Option Ledger :=
  l.dropPasses? (l.store.passes.pairs.filter fun p => p.2.expires ≤ now)

def purgeLoop? (now : Nat) : Nat → Ledger → Option Ledger
  | 0, l => some l
  | n + 1, l => if l.oldestDead now then l.takeOldest?.bind (purgeLoop? now n) else some l

def purge? (now : Nat) : Option Ledger := do
  let l ← l.sweep? now
  purgeLoop? now l.store.order.length l

def purgeOthers? (now : Nat) (locked : Nat → Bool) : Option Ledger :=
  go 0 l.others l.budget []
where
  go (i : Nat) : List Store → Budget → List Store → Option Ledger
    | [], budget, done => some { l with budget, others := done.reverse }
    | s :: rest, budget, done =>
      if locked i then go (i + 1) rest budget (s :: done)
      else do
        let p ← Ledger.purge? ⟨s, budget, []⟩ now
        go (i + 1) rest p.budget (p.store :: done)

def unpass? (key : Key) : Option Ledger :=
  match l.store.passes.lookup key with
  | none => some l
  | some p => l.dropPasses? [(key, p)]

def makePassRoom? (now max : Nat) : Option Ledger :=
  if l.store.passes.pairs.length < max then some l
  else do
    let l ← l.sweep? now
    if l.store.passes.pairs.length < max then some l else l.dropPasses? l.store.passes.pairs

def strike? (key : Key) (varies : Varies) (now ttl max : Nat) (locked : Nat → Bool) :
    Option Ledger := do
  let strikes := l.nextStrike key now
  let l ← l.unpass? key
  let l ← l.makePassRoom? now max
  let size := key.length + (varies.map fun v => lineSize v.1 (v.2.elim 0 List.length)).sum + 96
  let pass := { strikes, expires := now + ttl, varies, size }
  match l.reserve size with
  | some l => some (l.keepPass key pass)
  | none =>
    let l ← l.purgeOthers? now locked
    match l.reserve size with
    | some l => some (l.keepPass key pass)
    | none => some l

def droppable? (old : Nat) : Option Nat :=
  if l.store.passMemory ≤ l.store.memory ∧ old ≤ l.store.memory - l.store.passMemory then
    some (l.droppable old)
  else none

def makeRoom? (key : Key) (old grow : Nat) : Nat → Ledger → Option (Ledger × Bool)
  | 0, l => some (l, false)
  | n + 1, l =>
    match l.reserve grow with
    | some l => some (l, true)
    | none => do
      let droppable ← l.droppable? old
      if (l.budget.free.any fun f => droppable + f < grow) then some (l, false)
      else
        match l.store.order.find? fun o => o.2 ≠ key with
        | none => some (l, false)
        | some o => do
          let l ← l.take? o.2
          makeRoom? key old grow n l

def fitsHere? (cfg : Settings) (old size : Nat) : Option Bool :=
  if (if old > 0 then 1 else 0) ≤ l.store.order.length ∧
      (l.store.order.length - (if old > 0 then 1 else 0) = 0 ∨
        cfg.maxEntries ≤ l.store.order.length - (if old > 0 then 1 else 0) ∨
        old ≤ l.store.memory) then
    some (l.fitsHere cfg old size)
  else none

def makeRoomHere? (cfg : Settings) (key : Key) (old size : Nat) : Nat → Ledger → Option Ledger
  | 0, l => some l
  | n + 1, l => do
    if ← l.fitsHere? cfg old size then some l
    else
      match l.store.order.find? fun o => o.2 ≠ key with
      | none => makeRoomHere? cfg key old size n l
      | some o => do
        let l ← l.take? o.2
        makeRoomHere? cfg key old size n l

def claimRoom? (key : Key) (old grow now : Nat) (locked : Nat → Bool) : Option (Ledger × Bool) :=
  if grow = 0 then some (l, true)
  else
    match l.reserve grow with
    | some l => some (l, true)
    | none => do
      let l ← l.purgeOthers? now locked
      makeRoom? key old grow (l.store.order.length + 1) l

def place? (key : Key) (old : Nat) (entry : Entry) : Option Ledger :=
  if (l.store.entryAt key).elim 0 Entry.size ≤ l.store.memory ∧
      old - entry.size ≤ l.budget.used then
    some (l.place key old entry)
  else none

def insert? (cfg : Settings) (key : Key) (entry : Entry) (now : Nat) (locked : Nat → Bool) :
    Option Ledger := do
  let l ← l.purge? now
  let old := ((l.store.map.lookup key).bind Slot.entry).elim 0 Entry.size
  let claimed ← l.claimRoom? key old (entry.size - old) now locked
  if claimed.2 then
    let l ← makeRoomHere? cfg key old entry.size claimed.1.store.order.length claimed.1
    l.place? key old entry
  else some claimed.1

end Ledger

variable (cfg : Settings) (l : Ledger)

def putChecked? (key : Key) (entry : Option Entry) (now : Nat) (locked : Nat → Bool) :
    Option Ledger :=
  match entry with
  | some e => do
    let l ← l.insert? cfg key e now locked
    l.unpass? key
  | none => some l

def leave? (key : Key) (mark : Mark) (now : Nat) (locked : Nat → Bool) : Option Ledger :=
  match mark with
  | .strike varies => l.strike? key varies now cfg.ttl cfg.maxEntries locked
  | .reset => l.unpass? key
  | .nothing => some l
  | .failed => some l

def finish? (key : Key) (flight : Nat) (entry : Option Entry) (mark : Mark) (now : Nat)
    (locked : Nat → Bool) : Option Ledger := do
  let l ← putChecked? cfg l key entry now locked
  let l ← leave? cfg l key mark now locked
  return land l key flight mark.isFailed now

/-! ## What a store keeps -/

namespace Store
variable (m : Entry → Nat) (s : Store)

def sumEntries : Nat :=
  Table.total (fun slot => slot.entry.elim 0 m) s.map

def entryBytes : Nat := s.sumEntries Entry.size

def entryCount : Nat := s.sumEntries fun _ => 1

def passBytes : Nat := Table.total Pass.size s.passes

/-- The memory of a store is the sum of the sizes of what it keeps, within its limits, and its order
has exactly the entries. -/
structure Exact (cfg : Settings) (s : Store) : Prop where
  memory : s.memory = s.entryBytes + s.passBytes
  passMemory : s.passMemory = s.passBytes
  sorted : s.order.Pairwise fun o o' => o.1 < o'.1
  order : ∀ n k, (n, k) ∈ s.order ↔ ∃ e, s.entryAt k = some e ∧ e.seq = n
  count : s.entryCount = s.order.length
  sizes : ∀ k e, s.entryAt k = some e → 0 < e.size
  maxMemory : s.entryBytes ≤ cfg.maxMemory
  maxEntries : s.entryCount ≤ cfg.maxEntries
  maxPasses : s.passes.pairs.length ≤ cfg.maxEntries

lemma exact_empty (cfg : Settings) : empty.Exact cfg where
  memory := rfl
  passMemory := rfl
  sorted := List.Pairwise.nil
  order n k := by
    constructor
    · intro h
      cases h
    rintro ⟨e, he, -⟩
    cases he
  count := rfl
  sizes k e he := nomatch he
  maxMemory := Nat.zero_le _
  maxEntries := Nat.zero_le _
  maxPasses := Nat.zero_le _

variable {s s' : Store} {key : Key} {slot : Slot} {cfg : Settings}

lemma elim_lookup (s : Store) (key : Key) :
    ((s.map.lookup key).elim 0 fun slot => slot.entry.elim 0 m) = (s.entryAt key).elim 0 m := by
  rw [entryAt]
  cases s.map.lookup key <;> rfl

lemma sumEntries_insert (slot : Slot) (m : Entry → Nat) (h : s'.map = s.map.insert key slot) :
    s'.sumEntries m + (s.entryAt key).elim 0 m = s.sumEntries m + slot.entry.elim 0 m := by
  rw [sumEntries, h, ← elim_lookup]
  exact Table.total_insert_add _ _ _ _

lemma sumEntries_erase (h : s'.map = s.map.erase key) : s'.sumEntries m +
    (s.entryAt key).elim 0 m = s.sumEntries m := by
  rw [sumEntries, h, ← elim_lookup]
  exact Table.total_erase_add _ _ _

lemma le_sumEntries (s : Store) (key : Key) : (s.entryAt key).elim 0 m ≤ s.sumEntries m := by
  have hsum : sumEntries m { s with map := s.map.erase key } + (s.entryAt key).elim 0 m
      = s.sumEntries m := sumEntries_erase m rfl
  omega

lemma sumEntries_eq_zero (h : s.entryCount = 0) (m : Entry → Nat) : s.sumEntries m = 0 := by
  rw [entryCount] at h
  refine Table.total_eq_zero h fun slot hslot => ?_
  cases hentry : slot.entry with
  | none => rfl
  | some e =>
    rw [hentry] at hslot
    cases hslot

lemma entryAt_insert (slot : Slot) (h : s'.map = s.map.insert key slot) (k : Key) :
    s'.entryAt k = if k = key then slot.entry else s.entryAt k := by
  rw [entryAt, h, Table.lookup_insert_eq]
  split <;> rfl

lemma entryAt_erase (h : s'.map = s.map.erase key) (k : Key) :
    s'.entryAt k = if k = key then none else s.entryAt k := by
  rw [entryAt, h, Table.lookup_erase_eq]
  split <;> rfl

structure Alike (s s' : Store) : Prop where
  entryAt : ∀ k, s'.entryAt k = s.entryAt k
  sums : ∀ m, s'.sumEntries m = s.sumEntries m
  order : s'.order = s.order
  memory : s'.memory = s.memory
  passMemory : s'.passMemory = s.passMemory
  passes : s'.passes = s.passes

lemma Alike.exact (h : s.Alike s') (hs : s.Exact cfg) : s'.Exact cfg where
  memory := by
    rw [h.memory, hs.memory, entryBytes, ← h.sums, passBytes, ← h.passes]
    rfl
  passMemory := by
    rw [h.passMemory, hs.passMemory, passBytes, ← h.passes]
    rfl
  sorted := h.order ▸ hs.sorted
  order n k := by rw [h.order, hs.order, h.entryAt]
  count := by rw [entryCount, h.sums, h.order, ← hs.count, entryCount]
  sizes k e he := hs.sizes k e (h.entryAt k ▸ he)
  maxMemory := by
    rw [entryBytes, h.sums]
    exact hs.maxMemory
  maxEntries := by
    rw [entryCount, h.sums]
    exact hs.maxEntries
  maxPasses := h.passes ▸ hs.maxPasses

lemma alike_insert (h : slot.entry = s.entryAt key) :
    s.Alike { s with map := s.map.insert key slot } where
  entryAt k := by
    rw [entryAt_insert (s := s) slot rfl]
    split
    next hk => rw [hk, h]
    · rfl
  sums m := by
    have hsum : sumEntries m { s with map := s.map.insert key slot } + (s.entryAt key).elim 0 m
        = s.sumEntries m + slot.entry.elim 0 m := sumEntries_insert slot m rfl
    rw [h] at hsum
    omega
  order := rfl
  memory := rfl
  passMemory := rfl
  passes := rfl

lemma alike_erase (h : s.entryAt key = none) : s.Alike { s with map := s.map.erase key } where
  entryAt k := by
    rw [entryAt_erase (s := s) rfl]
    split
    next hk => rw [hk, h]
    · rfl
  sums m := by
    have hsum : sumEntries m { s with map := s.map.erase key } + (s.entryAt key).elim 0 m
        = s.sumEntries m := sumEntries_erase m rfl
    rwa [h] at hsum
  order := rfl
  memory := rfl
  passMemory := rfl
  passes := rfl

variable {l : List (Nat × Key)}

lemma nodup_fst (hl : l.Pairwise fun o o' => o.1 < o'.1) : (l.map Prod.fst).Nodup :=
  pairwise_map.mpr (hl.imp fun hlt => hlt.ne)

lemma key_unique (hl : l.Pairwise fun o o' => o.1 < o'.1) {n : Nat}
    {k k' : Key} (h : (n, k) ∈ l) (h' : (n, k') ∈ l) : k = k' :=
  (Prod.mk.inj (inj_on_of_nodup_map (nodup_fst hl) h h' rfl)).2

lemma length_filter_order (hl : l.Pairwise fun o o' => o.1 < o'.1) {n : Nat}
    {k : Key} (h : (n, k) ∈ l) : (l.filter fun o => o.1 ≠ n).length + 1 = l.length := by
  have hone := count_eq_one_of_mem (nodup_fst hl) (mem_map_of_mem h)
  rw [count, countP_map, countP_eq_length_filter] at hone
  rw [length_eq_length_filter_add (l := l) fun o => decide (o.1 ≠ n), ← hone]
  simp [Function.comp_def]
  rfl

end Store

namespace Ledger

/-! ## What only lets something go -/

structure Held (cfg : Settings) (l : Ledger) : Prop where
  store : l.store.Exact cfg
  used : l.store.memory ≤ l.budget.used

structure LetsGo (cfg : Settings) (l l' : Ledger) : Prop where
  held : l'.Held cfg
  balance : l'.budget.used + l.store.memory = l.budget.used + l'.store.memory
  fewer : l'.store.memory ≤ l.store.memory
  limit : l'.budget.limit = l.budget.limit
  others : l'.others = l.others

variable {cfg : Settings} {l l' l'' : Ledger} {key : Key}

lemma LetsGo.refl (h : l.Held cfg) : l.LetsGo cfg l := ⟨h, rfl, le_rfl, rfl, rfl⟩

lemma LetsGo.trans (h : l.LetsGo cfg l') (h' : l'.LetsGo cfg l'') : l.LetsGo cfg l'' := by
  refine ⟨h'.held, ?_, h'.fewer.trans h.fewer, h'.limit.trans h.limit, h'.others.trans h.others⟩
  have h₁ := h.balance
  have h₂ := h'.balance
  omega

lemma emptySlot_none {slot : Slot} (hslot : l.store.map.lookup key = some slot)
    (hentry : slot.entry = none) : l.store.Alike (l.emptySlot key slot).store := by
  have hat : l.store.entryAt key = none := by
    rw [Store.entryAt, hslot]
    exact hentry
  rw [emptySlot]
  split
  · exact Store.alike_erase hat
  · exact Store.alike_insert hat.symm

lemma entryAt_emptySlot (l : Ledger) (key : Key) (slot : Slot) (k : Key) :
    (l.emptySlot key slot).store.entryAt k = if k = key then none else l.store.entryAt k := by
  rw [emptySlot]
  split
  · exact Store.entryAt_erase rfl k
  · exact Store.entryAt_insert { slot with entry := none } rfl k

lemma sumEntries_emptySlot (l : Ledger) (key : Key) (slot : Slot) (m : Entry → Nat) :
    (l.emptySlot key slot).store.sumEntries m + (l.store.entryAt key).elim 0 m
      = l.store.sumEntries m := by
  rw [emptySlot]
  split
  · exact Store.sumEntries_erase m rfl
  · exact Store.sumEntries_insert { slot with entry := none } m rfl

variable {e : Entry}

lemma take_some (he : l.store.entryAt key = some e) : ∃ slot,
    l.take key = ((l.emptySlot key slot).unorder e.seq).free e.size ∧
      l.take? key = ((l.emptySlot key slot).unorder e.seq).free? e.size := by
  obtain ⟨slot, hslot, hentry⟩ := bind_eq_some_iff.mp he
  refine ⟨slot, ?_, ?_⟩
  · simp only [take, hslot, hentry]
  · simp only [take?, hslot, hentry]

lemma take_none (h : l.Held cfg) (he : l.store.entryAt key = none) :
    l.take? key = some (l.take key) ∧ l.LetsGo cfg (l.take key) := by
  cases hslot : l.store.map.lookup key with
  | none =>
    have htake : l.take key = l := by simp only [take, hslot]
    have htake? : l.take? key = some l := by simp only [take?, hslot]
    rw [htake]
    exact ⟨htake?, .refl h⟩
  | some slot =>
    have hentry : slot.entry = none := by
      rwa [Store.entryAt, hslot] at he
    have htake : l.take key = l.emptySlot key slot := by simp only [take, hslot, hentry]
    have htake? : l.take? key = some (l.emptySlot key slot) := by simp only [take?, hslot, hentry]
    rw [htake]
    exact ⟨htake?, ⟨(emptySlot_none hslot hentry).exact h.store, h.used⟩, rfl, le_rfl, rfl, rfl⟩

lemma free?_eq {n : Nat} (hm : n ≤ l.store.memory) (hu : n ≤ l.budget.used) :
    l.free? n = some (l.free n) :=
  if_pos ⟨hm, hu⟩

lemma size_le (h : l.Held cfg) (he : l.store.entryAt key = some e) : e.size ≤ l.store.memory := by
  have hle := Store.le_sumEntries Entry.size l.store key
  rw [he] at hle
  exact (hle.trans (Nat.le_add_right _ _)).trans_eq h.store.memory.symm

lemma exact_take {s' : Store} (h : l.Held cfg) (he : l.store.entryAt key = some e)
    (hat : ∀ k, s'.entryAt k = if k = key then none else l.store.entryAt k)
    (hsum : ∀ m, s'.sumEntries m + m e = l.store.sumEntries m)
    (horder : s'.order = l.store.order.filter fun o => o.1 ≠ e.seq)
    (hmemory : s'.memory = l.store.memory - e.size)
    (hpassMemory : s'.passMemory = l.store.passMemory)
    (hpasses : s'.passes = l.store.passes) : s'.Exact cfg := by
  have hs := h.store
  have hin : (e.seq, key) ∈ l.store.order := (hs.order _ _).mpr ⟨e, he, rfl⟩
  have hbytes : s'.entryBytes + e.size = l.store.entryBytes := hsum Entry.size
  have hcount : s'.entryCount + 1 = l.store.entryCount := hsum fun _ => 1
  have hpassBytes : s'.passBytes = l.store.passBytes := congrArg (Table.total Pass.size) hpasses
  have hlength := Store.length_filter_order hs.sorted hin
  have hsmem := hs.memory
  have hscount := hs.count
  have hsmax := hs.maxMemory
  have hsentries := hs.maxEntries
  refine ⟨?_, ?_, ?_, fun n k => ?_, ?_, fun k e' he' => ?_, ?_, ?_, ?_⟩
  · omega
  · rw [hpassMemory, hpassBytes, hs.passMemory]
  · rw [horder]
    exact hs.sorted.filter _
  · rw [horder, mem_filter, hs.order, hat, decide_eq_true_eq]
    constructor
    · rintro ⟨⟨e', he', rfl⟩, hne⟩
      rw [if_neg]
      · exact ⟨e', he', rfl⟩
      rintro rfl
      rw [he] at he'
      cases he'
      exact hne rfl
    rintro ⟨e', he', rfl⟩
    split at he'
    · cases he'
    rename_i hk
    refine ⟨⟨e', he', rfl⟩, fun hseq => hk ?_⟩
    -- a number of the order has one key
    have hin' : (e.seq, k) ∈ l.store.order := (hs.order _ _).mpr ⟨e', he', hseq⟩
    exact Store.key_unique hs.sorted hin' hin
  · rw [horder]
    omega
  · rw [hat] at he'
    split at he'
    · cases he'
    · exact hs.sizes k e' he'
  · omega
  · omega
  · rw [hpasses]
    exact hs.maxPasses

lemma take_spec (h : l.Held cfg) (key : Key) :
    l.take? key = some (l.take key) ∧ l.LetsGo cfg (l.take key) := by
  cases he : l.store.entryAt key with
  | none => exact take_none h he
  | some e =>
    obtain ⟨slot, htake, htake?⟩ := take_some he
    have hsize := size_le h he
    have hused := h.used
    have hsum : ∀ m, (l.emptySlot key slot).store.sumEntries m + m e = l.store.sumEntries m := by
      intro m
      have hsum := sumEntries_emptySlot l key slot m
      rwa [he] at hsum
    have hexact : (((l.emptySlot key slot).unorder e.seq).free e.size).store.Exact cfg :=
      exact_take h he (entryAt_emptySlot l key slot) hsum rfl rfl rfl rfl
    rw [htake, htake?]
    refine ⟨free?_eq hsize (hsize.trans h.used), ⟨hexact, ?_⟩, ?_, Nat.sub_le _ _, rfl, rfl⟩
    · show l.store.memory - e.size ≤ l.budget.used - e.size
      omega
    show l.budget.used - e.size + l.store.memory = l.budget.used + (l.store.memory - e.size)
    omega

lemma entryAt_take {k : Key} (hk : k ≠ key) :
    (l.take key).store.entryAt k = l.store.entryAt k := by
  cases hslot : l.store.map.lookup key with
  | none => simp only [take, hslot]
  | some slot =>
    have hempty := entryAt_emptySlot l key slot k
    rw [if_neg hk] at hempty
    simp only [take, hslot]
    split <;> exact hempty

lemma length_order_take (h : l.Held cfg) (he : l.store.entryAt key = some e) :
    (l.take key).store.order.length + 1 = l.store.order.length := by
  obtain ⟨slot, htake, -⟩ := take_some he
  rw [htake]
  exact Store.length_filter_order h.store.sorted ((h.store.order _ _).mpr ⟨e, he, rfl⟩)

lemma takeOldest_spec (h : l.Held cfg) :
    l.takeOldest? = some l.takeOldest ∧ l.LetsGo cfg l.takeOldest := by
  cases horder : l.store.order with
  | nil =>
    have htake : l.takeOldest = l := by simp only [takeOldest, horder]
    have htake? : l.takeOldest? = some l := by simp only [takeOldest?, horder]
    rw [htake]
    exact ⟨htake?, .refl h⟩
  | cons o rest =>
    obtain ⟨seq, key⟩ := o
    obtain ⟨hchecked, hgo⟩ := take_spec h key
    have hmem : (seq, key) ∈ l.store.order := by
      rw [horder]
      exact List.mem_cons_self
    obtain ⟨e, he, rfl⟩ := (h.store.order _ _).mp hmem
    -- the number went with the entry
    have hunorder : (l.take key).unorder e.seq = l.take key := by
      obtain ⟨slot, htake, -⟩ := take_some he
      rw [htake]
      simp only [unorder, free, List.filter_filter, Bool.and_self]
    have htake : l.takeOldest = l.take key := by
      simp only [takeOldest, horder]
      exact hunorder
    have htake? : l.takeOldest? = some (l.take key) := by
      simp only [takeOldest?, horder, hchecked, Option.map_some, hunorder]
    rw [htake]
    exact ⟨htake?, hgo⟩

lemma purgeLoop_spec (now n : Nat) (h : l.Held cfg) :
    purgeLoop? now n l = some (purgeLoop now n l) ∧ l.LetsGo cfg (purgeLoop now n l) := by
  induction n generalizing l with
  | zero => exact ⟨rfl, .refl h⟩
  | succ n ih =>
    obtain ⟨hchecked, hgo⟩ := takeOldest_spec h
    rw [purgeLoop?, purgeLoop]
    split
    · rw [hchecked]
      obtain ⟨hchecked', hgo'⟩ := ih hgo.held
      exact ⟨hchecked', hgo.trans hgo'⟩
    · exact ⟨rfl, .refl h⟩

lemma dropPasses_spec (h : l.Held cfg) (gone : List (Key × Pass))
    (hkeys : (gone.map Prod.fst).Nodup) (hgone : ∀ p ∈ gone, l.store.passes.lookup p.1 = some p.2) :
    l.dropPasses? gone = some (l.dropPasses gone) ∧ l.LetsGo cfg (l.dropPasses gone) ∧
      (l.dropPasses gone).store.passes.pairs.length + gone.length =
        l.store.passes.pairs.length := by
  have hs := h.store
  have hmemory := hs.memory
  have hpassMemory := hs.passMemory
  have hused := h.used
  have hbytes : (l.dropPasses gone).store.passBytes + (gone.map fun p => p.2.size).sum =
      l.store.passBytes := Table.total_eraseAll_add hkeys hgone
  have hcount : (l.dropPasses gone).store.passes.pairs.length + gone.length =
      l.store.passes.pairs.length := Table.length_eraseAll_add hkeys hgone
  have hmax := hs.maxPasses
  generalize hfreed : (gone.map fun p => p.2.size).sum = freed at hbytes
  have hdrop : (l.dropPasses gone).store.memory = l.store.memory - freed := by
    rw [← hfreed]
    rfl
  have hdrop' : (l.dropPasses gone).store.passMemory = l.store.passMemory - freed := by
    rw [← hfreed]
    rfl
  have hdrop'' : (l.dropPasses gone).budget.used = l.budget.used - freed := by
    rw [← hfreed]
    rfl
  have hentries : (l.dropPasses gone).store.entryBytes = l.store.entryBytes := rfl
  refine ⟨?_, ⟨⟨⟨?_, ?_, hs.sorted, hs.order, hs.count, hs.sizes, hs.maxMemory, hs.maxEntries, ?_⟩,
    ?_⟩, ?_, ?_, rfl, rfl⟩, hcount⟩
  · exact if_pos (by omega)
  all_goals omega

lemma lookup_dropPasses (gone : List (Key × Pass)) (h : l.store.passes.lookup key = none) :
    (l.dropPasses gone).store.passes.lookup key = none := by
  show (l.store.passes.eraseAll (gone.map Prod.fst)).lookup key = none
  rw [Table.lookup_eraseAll, h, ite_self]

lemma sweep_spec (h : l.Held cfg) (now : Nat) :
    l.sweep? now = some (l.sweep now) ∧ l.LetsGo cfg (l.sweep now) ∧
      (l.sweep now).store.passes.pairs.length ≤ l.store.passes.pairs.length := by
  obtain ⟨hchecked, hgo, hcount⟩ := dropPasses_spec h
    (l.store.passes.pairs.filter fun p => p.2.expires ≤ now)
    ((Table.nodup_map_fst_pairs _).sublist (filter_sublist.map _))
    fun p hp => Table.mem_pairs.mp (mem_filter.mp hp).1
  exact ⟨hchecked, hgo, by rw [sweep]; omega⟩

lemma purge_spec (h : l.Held cfg) (now : Nat) :
    l.purge? now = some (l.purge now) ∧ l.LetsGo cfg (l.purge now) := by
  obtain ⟨hchecked, hgo, -⟩ := sweep_spec h now
  obtain ⟨hchecked', hgo'⟩ := purgeLoop_spec now (l.sweep now).store.order.length hgo.held
  refine ⟨?_, hgo.trans hgo'⟩
  rw [purge?, hchecked]
  exact hchecked'

lemma unpass_spec (h : l.Held cfg) (key : Key) :
    l.unpass? key = some (l.unpass key) ∧ l.LetsGo cfg (l.unpass key) ∧
      (l.unpass key).store.passes.lookup key = none := by
  cases hp : l.store.passes.lookup key with
  | none =>
    simp only [unpass?, unpass, hp]
    exact ⟨trivial, .refl h, trivial⟩
  | some p =>
    obtain ⟨hchecked, hgo, -⟩ := dropPasses_spec h [(key, p)] (nodup_singleton _) fun p' hp' => by
      rw [mem_singleton.mp hp']
      exact hp
    simp only [unpass?, unpass, hp]
    refine ⟨hchecked, hgo, ?_⟩
    show (l.store.passes.eraseAll [key]).lookup key = none
    rw [Table.lookup_eraseAll, if_pos (mem_singleton.mpr rfl)]

lemma makePassRoom_spec (h : l.Held cfg) (now : Nat) :
    l.makePassRoom? now cfg.maxEntries = some (l.makePassRoom now cfg.maxEntries) ∧
      l.LetsGo cfg (l.makePassRoom now cfg.maxEntries) ∧
      (l.makePassRoom now cfg.maxEntries).store.passes.pairs.length < cfg.maxEntries ∧
      (l.store.passes.lookup key = none →
        (l.makePassRoom now cfg.maxEntries).store.passes.lookup key = none) := by
  rw [makePassRoom?, makePassRoom]
  split
  next hlt => exact ⟨rfl, .refl h, hlt, fun hnone => hnone⟩
  obtain ⟨hchecked, hgo, -⟩ := sweep_spec h now
  have hsweep : l.store.passes.lookup key = none → (l.sweep now).store.passes.lookup key = none :=
    lookup_dropPasses _
  rw [hchecked]
  dsimp only [bind_eq_bind, bind_some]
  split
  next hlt => exact ⟨rfl, hgo, hlt, hsweep⟩
  obtain ⟨hchecked', hgo', hcount⟩ := dropPasses_spec hgo.held _ (Table.nodup_map_fst_pairs _)
    fun p hp => Table.mem_pairs.mp hp
  refine ⟨hchecked', hgo.trans hgo', ?_, fun hnone => lookup_dropPasses _ (hsweep hnone)⟩
  have := cfg.max_entries
  omega

def othersMemory (c : Nat) : Nat → List Store → Nat
  | _, [] => 0
  | i, s :: rest => (if i = c then 0 else s.memory) + othersMemory c (i + 1) rest

/-- The store of the cache `c` with the others is exact, and the budget counts `extra` bytes
more. -/
structure Exact (cfg : Nat → Settings) (limit c extra : Nat) (l : Ledger) : Prop where
  store : l.store.Exact (cfg c)
  others : ∀ i s, i ≠ c → l.others[i]? = some s → s.Exact (cfg i)
  used : l.budget.used = l.store.memory + othersMemory c 0 l.others + extra
  bounded : l.budget.used ≤ limit
  limit : l.budget.limit = limit

variable {cfgs : Nat → Settings} {limit c extra : Nat}

lemma Exact.held (h : l.Exact cfgs limit c extra) : l.Held (cfgs c) := by
  refine ⟨h.store, ?_⟩
  have := h.used
  omega

lemma Exact.letsGo (h : l.Exact cfgs limit c extra) (hgo : l.LetsGo (cfgs c) l') :
    l'.Exact cfgs limit c extra := by
  have hused := h.used
  have hbounded := h.bounded
  have hbalance := hgo.balance
  have hfewer := hgo.fewer
  refine ⟨hgo.held.store, ?_, ?_, ?_, hgo.limit.trans h.limit⟩
  · rw [hgo.others]
    exact h.others
  · rw [hgo.others]
    omega
  · omega

variable {locked : Nat → Bool}

lemma go_spec (l : Ledger) (now : Nat) (hlocked : locked c)
    (rest : List Store) (i : Nat) (b : Budget) (done : List Store)
    (hrest : ∀ j s, i + j ≠ c → rest[j]? = some s → s.Exact (cfgs (i + j)))
    (hused : othersMemory c i rest ≤ b.used) :
    ∃ b' rest', purgeOthers.go l now locked i rest b done =
        { l with budget := b', others := done.reverse ++ rest' } ∧
      purgeOthers?.go l now locked i rest b done =
        some { l with budget := b', others := done.reverse ++ rest' } ∧
      (∀ j s, i + j ≠ c → rest'[j]? = some s → s.Exact (cfgs (i + j))) ∧
      b'.used + othersMemory c i rest = b.used + othersMemory c i rest' ∧
      b'.used ≤ b.used ∧ b'.limit = b.limit := by
  induction rest generalizing i b done with
  | nil =>
    refine ⟨b, [], ?_, ?_, hrest, rfl, le_rfl, rfl⟩
    · rw [append_nil]
      rfl
    rw [append_nil]
    rfl
  | cons s rest ih =>
    have htail : ∀ j s', i + 1 + j ≠ c → rest[j]? = some s' → s'.Exact (cfgs (i + 1 + j)) := by
      intro j s' hj hs'
      rw [Nat.add_right_comm] at hj ⊢
      exact hrest (j + 1) s' hj hs'
    -- the store of `i` and those behind it
    have hcons : ∀ {s' : Store} {rest' : List Store}, (i ≠ c → s'.Exact (cfgs i)) →
        (∀ j s'', i + 1 + j ≠ c → rest'[j]? = some s'' → s''.Exact (cfgs (i + 1 + j))) →
        ∀ j s'', i + j ≠ c → (s' :: rest')[j]? = some s'' → s''.Exact (cfgs (i + j)) := by
      intro s' rest' hs' hrest' j s'' hj hs''
      cases j with
      | zero =>
        cases hs''
        exact hs' hj
      | succ j =>
        rw [← Nat.add_assoc, Nat.add_right_comm] at hj ⊢
        exact hrest' j s'' hj hs''
    have hhead : i ≠ c → s.Exact (cfgs i) := fun hi => hrest 0 s hi rfl
    have hreverse : ∀ (s' : Store) (rest' : List Store),
        (s' :: done).reverse ++ rest' = done.reverse ++ s' :: rest' := fun s' rest' => by
      rw [reverse_cons, append_assoc, singleton_append]
    rw [othersMemory] at hused
    rw [purgeOthers.go, purgeOthers?.go]
    split
    · obtain ⟨b', rest', hgo, hgo?, hexact, hbalance, hfewer, hlimit⟩ :=
        ih (i + 1) b (s :: done) htail (by omega)
      rw [hreverse] at hgo hgo?
      refine ⟨b', s :: rest', hgo, hgo?, hcons hhead hexact, ?_, hfewer, hlimit⟩
      rw [othersMemory, othersMemory]
      omega
    rename_i hi
    have hne : i ≠ c := by
      rintro rfl
      exact hi hlocked
    rw [if_neg hne] at hused
    obtain ⟨hchecked, hgo⟩ := purge_spec (l := ⟨s, b, []⟩)
      ⟨hhead hne, by show s.memory ≤ b.used; omega⟩ now
    have hbalance := hgo.balance
    have hfewer := hgo.fewer
    dsimp only at hbalance hfewer
    obtain ⟨b', rest', hgo', hgo?, hexact, hbalance', hfewer', hlimit⟩ :=
      ih (i + 1) (purge ⟨s, b, []⟩ now).budget ((purge ⟨s, b, []⟩ now).store :: done) htail
        (by omega)
    rw [hreverse] at hgo' hgo?
    rw [hchecked]
    refine ⟨b', (purge ⟨s, b, []⟩ now).store :: rest', hgo', hgo?,
      hcons (fun _ => hgo.held.store) hexact, ?_, by omega, hlimit.trans hgo.limit⟩
    rw [othersMemory, othersMemory, if_neg hne, if_neg hne]
    omega

lemma purgeOthers_spec (h : l.Exact cfgs limit c extra) (now : Nat) (hlocked : locked c) :
    l.purgeOthers? now locked = some (l.purgeOthers now locked) ∧
      (l.purgeOthers now locked).Exact cfgs limit c extra ∧
      (l.purgeOthers now locked).store = l.store := by
  have hused := h.used
  have hbounded := h.bounded
  obtain ⟨b', rest', hgo, hgo?, hexact, hbalance, hfewer, hlimit⟩ :=
    go_spec l now hlocked l.others 0
    l.budget [] (by simpa only [Nat.zero_add] using h.others) (by omega)
  rw [reverse_nil, nil_append] at hgo hgo?
  rw [purgeOthers, purgeOthers?, hgo, hgo?]
  refine ⟨rfl, ⟨h.store, by simpa only [Nat.zero_add] using hexact, ?_, ?_,
    hlimit.trans h.limit⟩, rfl⟩
  · show b'.used = l.store.memory + othersMemory c 0 rest' + extra
    omega
  · exact hfewer.trans hbounded

/-! ## Room in the budget -/

lemma reserve_spec {n : Nat} (hlimit : limit ≠ 0) (h : l.Exact cfgs limit c 0)
    (hreserve : l.reserve n = some l') : l'.Exact cfgs limit c n ∧ l'.store = l.store := by
  obtain ⟨b, hb, rfl⟩ := map_eq_some_iff.mp hreserve
  rw [Budget.reserve, h.limit] at hb
  split at hb
  next hfits =>
    cases hb
    have hused := h.used
    refine ⟨⟨h.store, h.others, ?_, hfits.resolve_left hlimit, rfl⟩, rfl⟩
    show l.budget.used + n = l.store.memory + othersMemory c 0 l.others + n
    omega
  · cases hb

lemma keepPass_spec {pass : Pass} (h : l.Exact cfgs limit c pass.size)
    (hnone : l.store.passes.lookup key = none)
    (hroom : l.store.passes.pairs.length < (cfgs c).maxEntries) :
    (l.keepPass key pass).Exact cfgs limit c 0 := by
  have hs := h.store
  have hmemory := hs.memory
  have hpassMemory := hs.passMemory
  have hused := h.used
  have hnot : key ∉ l.store.passes := AList.lookup_eq_none.mp hnone
  have hbytes : (l.keepPass key pass).store.passBytes = pass.size + l.store.passBytes :=
    Table.total_insert_of_notMem pass hnot
  have hcount : (l.keepPass key pass).store.passes.pairs.length =
    1 + l.store.passes.pairs.length := by
    have hone : Table.total (fun _ => 1) (l.store.passes.insert key pass) =
        1 + Table.total (fun _ => 1) l.store.passes := Table.total_insert_of_notMem pass hnot
    rw [Table.total_one, Table.total_one] at hone
    exact hone
  refine ⟨⟨?_, ?_, hs.sorted, hs.order, hs.count, hs.sizes, hs.maxMemory, hs.maxEntries, ?_⟩,
    h.others, ?_, h.bounded, h.limit⟩
  · show l.store.memory + pass.size = l.store.entryBytes + _
    omega
  · show l.store.passMemory + pass.size = _
    omega
  · omega
  show l.budget.used = l.store.memory + pass.size + othersMemory c 0 l.others + 0
  omega

lemma strike_spec (hlimit : limit ≠ 0) (h : l.Exact cfgs limit c 0) (key : Key) (varies : Varies)
    (now : Nat) (hlocked : locked c) :
    l.strike? key varies now (cfgs c).ttl (cfgs c).maxEntries locked =
        some (l.strike key varies now (cfgs c).ttl (cfgs c).maxEntries locked) ∧
      (l.strike key varies now (cfgs c).ttl (cfgs c).maxEntries locked).Exact cfgs limit c 0 := by
  obtain ⟨hunpass, hgo, hnone⟩ := unpass_spec h.held key
  obtain ⟨hroom, hgo', hless, hnone'⟩ := makePassRoom_spec hgo.held now
  have hexact := (h.letsGo hgo).letsGo hgo'
  have hnone := hnone' hnone
  rw [strike?, strike, hunpass]
  dsimp only [bind_eq_bind, bind_some]
  rw [hroom]
  dsimp only [bind_some]
  generalize key.length + (varies.map fun v =>
    lineSize v.1 (v.2.elim 0 List.length)).sum + 96 = size
  cases hreserve : ((l.unpass key).makePassRoom now (cfgs c).maxEntries).reserve size with
  | some l₁ =>
    obtain ⟨hexact', hstore⟩ := reserve_spec hlimit hexact hreserve
    exact ⟨rfl, keepPass_spec hexact' (hstore ▸ hnone) (hstore ▸ hless)⟩
  | none =>
    obtain ⟨hpurge, hexact', hstore⟩ := purgeOthers_spec hexact now hlocked
    rw [hpurge, bind_some]
    cases hreserve' : (((l.unpass key).makePassRoom now (cfgs c).maxEntries).purgeOthers now
        locked).reserve size with
    | some l₂ =>
      obtain ⟨hexact'', hstore'⟩ := reserve_spec hlimit hexact' hreserve'
      rw [hstore] at hstore'
      exact ⟨rfl, keepPass_spec hexact'' (hstore' ▸ hnone) (hstore' ▸ hless)⟩
    | none => exact ⟨rfl, hexact'⟩

def oldSize (l : Ledger) (key : Key) : Nat := (l.store.entryAt key).elim 0 Entry.size

lemma droppable_spec (h : l.Held cfg) (key : Key) :
    l.droppable? (l.oldSize key) = some (l.droppable (l.oldSize key)) := by
  have hmemory := h.store.memory
  have hpassMemory := h.store.passMemory
  have hold : l.oldSize key ≤ l.store.entryBytes := Store.le_sumEntries Entry.size l.store key
  exact if_pos (by omega)

lemma takeBut_spec (h : l.Exact cfgs limit c extra) {o : Nat × Key}
    (ho : (l.store.order.find? fun o => o.2 ≠ key) = some o) :
    l.take? o.2 = some (l.take o.2) ∧ (l.take o.2).Exact cfgs limit c extra ∧
      (l.take o.2).store.entryAt key = l.store.entryAt key ∧
      (l.take o.2).store.order.length + 1 = l.store.order.length := by
  obtain ⟨hchecked, hgo⟩ := take_spec h.held o.2
  have hne : o.2 ≠ key := by simpa using find?_some ho
  obtain ⟨e, he, -⟩ := (h.store.order o.1 o.2).mp (mem_of_find?_eq_some ho)
  exact ⟨hchecked, h.letsGo hgo, entryAt_take (Ne.symm hne), length_order_take h.held he⟩

variable {key : Key} {old : Nat}

lemma makeRoom_spec (hlimit : limit ≠ 0) (grow n : Nat)
    (h : l.Exact cfgs limit c 0) (hold : old = l.oldSize key) :
    makeRoom? key old grow n l = some (makeRoom key old grow n l) ∧
      (makeRoom key old grow n l).1.Exact cfgs limit c
        (if (makeRoom key old grow n l).2 then grow else 0) ∧
      (makeRoom key old grow n l).1.store.entryAt key = l.store.entryAt key := by
  induction n generalizing l with
  | zero => exact ⟨rfl, h, rfl⟩
  | succ n ih =>
    rw [makeRoom?, makeRoom]
    cases hreserve : l.reserve grow with
    | some l' =>
      obtain ⟨hexact, hstore⟩ := reserve_spec hlimit h hreserve
      exact ⟨rfl, hexact, congrArg (fun s => Store.entryAt s key) hstore⟩
    | none =>
      have hdroppable := droppable_spec h.held key
      rw [← hold] at hdroppable
      dsimp only [bind_eq_bind]
      rw [hdroppable, bind_some]
      split
      · exact ⟨rfl, h, rfl⟩
      cases ho : l.store.order.find? fun o => o.2 ≠ key with
      | none =>
        simp only [takeOldestBut, ho, map_none]
        exact ⟨trivial, h, trivial⟩
      | some o =>
        obtain ⟨hchecked, hexact, hentry, -⟩ := takeBut_spec h ho
        have hold' : old = (l.take o.2).oldSize key := by
          rw [hold, oldSize, oldSize, hentry]
        obtain ⟨hrest, hexact', hentry'⟩ := ih hexact hold'
        simp only [takeOldestBut, ho, map_some, hchecked, bind_some]
        exact ⟨hrest, hexact', hentry'.trans hentry⟩

lemma claimRoom_spec (hlimit : limit ≠ 0) (grow now : Nat) (hlocked : locked c)
    (h : l.Exact cfgs limit c 0) (hold : old = l.oldSize key) :
    l.claimRoom? key old grow now locked = some (l.claimRoom key old grow now locked) ∧
      (l.claimRoom key old grow now locked).1.Exact cfgs limit c
        (if (l.claimRoom key old grow now locked).2 then grow else 0) ∧
      (l.claimRoom key old grow now locked).1.store.entryAt key = l.store.entryAt key := by
  rw [claimRoom?, claimRoom]
  split
  next hgrow =>
    rw [hgrow]
    exact ⟨rfl, h, rfl⟩
  cases hreserve : l.reserve grow with
  | some l' =>
    obtain ⟨hexact, hstore⟩ := reserve_spec hlimit h hreserve
    exact ⟨rfl, hexact, congrArg (fun s => Store.entryAt s key) hstore⟩
  | none =>
    obtain ⟨hpurge, hexact, hstore⟩ := purgeOthers_spec h now hlocked
    have hold' : old = (l.purgeOthers now locked).oldSize key := by
      rw [hold, oldSize, oldSize, hstore]
    obtain ⟨hrest, hexact', hentry⟩ := makeRoom_spec hlimit grow
      ((l.purgeOthers now locked).store.order.length + 1) hexact hold'
    rw [hpurge]
    exact ⟨hrest, hexact', hentry.trans (congrArg (fun s => Store.entryAt s key) hstore)⟩

/-! ## A new entry -/

lemma others_order (h : l.Held cfg) (key : Key) :
    (if l.oldSize key > 0 then 1 else 0) ≤ l.store.order.length ∧
      ((l.store.order.find? fun o => o.2 ≠ key) = none →
        l.store.order.length = if l.oldSize key > 0 then 1 else 0) := by
  have hs := h.store
  cases he : l.store.entryAt key with
  | none =>
    have hold : l.oldSize key = 0 := by rw [oldSize, he, elim_none]
    rw [hold]
    refine ⟨Nat.zero_le _, fun hfind => ?_⟩
    rw [find?_eq_none] at hfind
    rw [if_neg (Nat.lt_irrefl 0), length_eq_zero_iff, eq_nil_iff_forall_not_mem]
    intro o ho
    have hkey : o.2 = key := by simpa using hfind o ho
    obtain ⟨e, he', -⟩ := (hs.order o.1 o.2).mp ho
    rw [hkey, he] at he'
    cases he'
  | some e =>
    have hold : l.oldSize key > 0 := by
      rw [oldSize, he]
      exact hs.sizes key e he
    have hmem : (e.seq, key) ∈ l.store.order := (hs.order _ _).mpr ⟨e, he, rfl⟩
    rw [if_pos hold]
    refine ⟨length_pos_of_mem hmem, fun hfind => ?_⟩
    rw [find?_eq_none] at hfind
    have hlength := Store.length_filter_order hs.sorted hmem
    have hnone : l.store.order.filter (fun o => o.1 ≠ e.seq) = [] := by
      rw [filter_eq_nil_iff]
      intro o ho
      have hkey : o.2 = key := by simpa using hfind o ho
      obtain ⟨e', he', hseq⟩ := (hs.order o.1 o.2).mp ho
      rw [hkey, he] at he'
      cases he'
      simp [hseq]
    rw [hnone] at hlength
    exact hlength.symm

lemma fitsHere_spec (h : l.Held cfg) (key : Key) (size : Nat) :
    l.fitsHere? cfg (l.oldSize key) size = some (l.fitsHere cfg (l.oldSize key) size) := by
  have hmemory := h.store.memory
  have hold : l.oldSize key ≤ l.store.entryBytes := Store.le_sumEntries Entry.size l.store key
  exact if_pos ⟨(others_order h key).1, .inr (.inr (by omega))⟩

lemma makeRoomHere_spec (size n : Nat) (h : l.Exact cfgs limit c extra)
    (hold : old = l.oldSize key) (hn : l.store.order.length - (if old > 0 then 1 else 0) ≤ n) :
    makeRoomHere? (cfgs c) key old size n l = some (makeRoomHere (cfgs c) key old size n l) ∧
      (makeRoomHere (cfgs c) key old size n l).Exact cfgs limit c extra ∧
      (makeRoomHere (cfgs c) key old size n l).store.entryAt key = l.store.entryAt key ∧
      (makeRoomHere (cfgs c) key old size n l).fitsHere (cfgs c) old size := by
  induction n generalizing l with
  | zero =>
    refine ⟨rfl, h, rfl, ?_⟩
    rw [makeRoomHere, fitsHere, Nat.le_zero.mp hn]
    rfl
  | succ n ih =>
    have hfits := fitsHere_spec h.held key size
    rw [← hold] at hfits
    rw [makeRoomHere?, makeRoomHere]
    dsimp only [bind_eq_bind]
    rw [hfits]
    cases hfit : l.fitsHere (cfgs c) old size with
    | true => exact ⟨rfl, h, rfl, hfit⟩
    | false =>
      cases ho : l.store.order.find? fun o => o.2 ≠ key with
      | none =>
        -- nothing else to drop: then it fits
        have hlength := (others_order h.held key).2 ho
        rw [← hold] at hlength
        rw [fitsHere, hlength, Nat.sub_self] at hfit
        cases hfit
      | some o =>
        obtain ⟨hchecked, hexact, hentry, hlength⟩ := takeBut_spec h ho
        have hold' : old = (l.take o.2).oldSize key := by
          rw [hold, oldSize, oldSize, hentry]
        obtain ⟨hrest, hexact', hentry', hfit'⟩ := ih hexact hold' (by omega)
        simp only [takeOldestBut, ho, map_some, getD_some, hchecked, bind_some]
        exact ⟨hrest, hexact', hentry'.trans hentry, hfit'⟩

variable {order : List (Nat × Key)} {seq : Nat}

lemma perm_orderInsert (hfresh : ∀ k, (seq, k) ∉ order) :
    orderInsert seq key order ~ (seq, key) :: order := by
  induction order with
  | nil => exact .rfl
  | cons o rest ih =>
    rw [orderInsert]
    split
    · exact .rfl
    split
    next heq =>
      obtain ⟨n, k⟩ := o
      cases heq
      exact absurd mem_cons_self (hfresh k)
    · exact ((ih fun k hk => hfresh k (mem_cons_of_mem _ hk)).cons o).trans (.swap ..)

lemma sorted_orderInsert (hfresh : ∀ k, (seq, k) ∉ order)
    (h : order.Pairwise fun o o' => o.1 < o'.1) :
    (orderInsert seq key order).Pairwise fun o o' => o.1 < o'.1 := by
  induction order with
  | nil => exact pairwise_singleton _ _
  | cons o rest ih =>
    have hfresh' : ∀ k, (seq, k) ∉ rest := fun k hk => hfresh k (mem_cons_of_mem _ hk)
    obtain ⟨hfirst, hrest⟩ := pairwise_cons.mp h
    rw [orderInsert]
    split
    next hlt =>
      refine pairwise_cons.mpr ⟨fun o' ho' => ?_, h⟩
      rcases mem_cons.mp ho' with rfl | ho'
      · exact hlt
      · exact hlt.trans (hfirst o' ho')
    split
    next heq =>
      obtain ⟨n, k⟩ := o
      cases heq
      exact absurd mem_cons_self (hfresh k)
    refine pairwise_cons.mpr ⟨fun o' ho' => ?_, ih hfresh' hrest⟩
    rcases mem_cons.mp ((perm_orderInsert hfresh').mem_iff.mp ho') with rfl | ho'
    · omega
    · exact hfirst o' ho'

lemma place_order (h : l.Held cfg) (key : Key) (entry : Entry) : ∃ order : List (Nat × Key),
    (∀ old, (l.place key old entry).store.order = orderInsert entry.seq key order ∧
      (l.place key old entry).store.memory = l.store.memory - l.oldSize key + entry.size) ∧
    order.Pairwise (fun o o' => o.1 < o'.1) ∧
    (∀ n k, (n, k) ∈ order ↔ k ≠ key ∧ (n, k) ∈ l.store.order) ∧
    order.length = l.store.order.length - (if l.oldSize key > 0 then 1 else 0) := by
  have hs := h.store
  have hslot : ((l.store.map.lookup key).getD {}).entry = l.store.entryAt key := by
    rw [Store.entryAt]
    cases l.store.map.lookup key <;> rfl
  cases he : l.store.entryAt key with
  | none =>
    have hold : l.oldSize key = 0 := by rw [oldSize, he, elim_none]
    refine ⟨l.store.order, fun old => ?_, hs.sorted, fun n k => ⟨fun hmem => ⟨?_, hmem⟩,
      And.right⟩, ?_⟩
    · simp only [place, hslot, he, hold]
      exact ⟨trivial, rfl⟩
    · rintro rfl
      obtain ⟨e, he', -⟩ := (hs.order n k).mp hmem
      rw [he] at he'
      cases he'
    · rw [hold, if_neg (Nat.lt_irrefl 0), Nat.sub_zero]
  | some e =>
    have hold : l.oldSize key = e.size := by rw [oldSize, he, elim_some]
    have hpos : l.oldSize key > 0 := hold ▸ hs.sizes key e he
    have hmem : (e.seq, key) ∈ l.store.order := (hs.order _ _).mpr ⟨e, he, rfl⟩
    refine ⟨l.store.order.filter fun o => o.1 ≠ e.seq, fun old => ?_, hs.sorted.filter _,
      fun n k => ?_, ?_⟩
    · simp only [place, hslot, he, hold]
      exact ⟨trivial, trivial⟩
    · rw [mem_filter, decide_eq_true_eq, and_comm]
      refine and_congr_left fun hnk => not_congr ⟨?_, ?_⟩
      · rintro rfl
        exact Store.key_unique hs.sorted hnk hmem
      rintro rfl
      obtain ⟨e', he', hseq⟩ := (hs.order n k).mp hnk
      rw [he] at he'
      cases he'
      exact hseq.symm
    have hlength := Store.length_filter_order hs.sorted hmem
    rw [if_pos hpos]
    omega

lemma sumEntries_place (key : Key) (old : Nat) (entry : Entry) (m : Entry → Nat) :
    (l.place key old entry).store.sumEntries m + (l.store.entryAt key).elim 0 m
      = l.store.sumEntries m + m entry :=
  Store.sumEntries_insert { (l.store.map.lookup key).getD {} with entry := some entry } m rfl

lemma elim_one (h : l.Held cfg) (key : Key) :
    (l.store.entryAt key).elim 0 (fun _ => 1) = if l.oldSize key > 0 then 1 else 0 := by
  rw [oldSize]
  cases he : l.store.entryAt key with
  | none => rfl
  | some e => rw [elim_some, elim_some, if_pos (h.store.sizes key e he)]

lemma entryBytes_of_alone (h : l.Held cfg) (key : Key)
    (hnone : l.store.order.length - (if l.oldSize key > 0 then 1 else 0) = 0) :
    l.store.entryBytes = l.oldSize key := by
  have hcount : Store.entryCount { l.store with map := l.store.map.erase key } +
      (l.store.entryAt key).elim 0 (fun _ => 1) = l.store.entryCount :=
    Store.sumEntries_erase _ rfl
  have hbytes : Store.entryBytes { l.store with map := l.store.map.erase key } + l.oldSize key
      = l.store.entryBytes := Store.sumEntries_erase Entry.size rfl
  rw [elim_one h, h.store.count] at hcount
  have hzero := Store.sumEntries_eq_zero (s := { l.store with map := l.store.map.erase key })
    (by omega) Entry.size
  rw [Store.entryBytes] at hbytes
  omega

lemma place_spec {entry : Entry}
    (h : l.Exact cfgs limit c (entry.size - old)) (hold : old = l.oldSize key)
    (hfit : l.fitsHere (cfgs c) old entry.size) (hsize : entry.size ≤ (cfgs c).maxMemory)
    (hpos : 0 < entry.size) (hfresh : ∀ k, (entry.seq, k) ∈ l.store.order → k = key) :
    l.place? key old entry = some (l.place key old entry) ∧
      (l.place key old entry).Exact cfgs limit c 0 := by
  have hs := h.store
  obtain ⟨order, hplace, hsorted, hmem, hlength⟩ := place_order h.held key entry
  obtain ⟨horder, hmemory⟩ := hplace old
  rw [← hold] at hlength hmemory
  have hfresh' : ∀ k, (entry.seq, k) ∉ order := fun k hk =>
    ((hmem _ k).mp hk).1 (hfresh k ((hmem _ k).mp hk).2)
  have hsmemory := hs.memory
  have hscount := hs.count
  have hused := h.used
  have hbounded := h.bounded
  have holdle : old ≤ l.store.entryBytes := hold ▸ Store.le_sumEntries Entry.size l.store key
  have hbytes : (l.place key old entry).store.entryBytes + old =
    l.store.entryBytes + entry.size := by
    have hsum := sumEntries_place (l := l) key old entry Entry.size
    rw [hold] at hsum ⊢
    exact hsum
  have hone : (if old > 0 then 1 else 0) ≤ l.store.order.length :=
    hold ▸ (others_order h.held key).1
  have hcount : (l.place key old entry).store.entryCount + (if old > 0 then 1 else 0)
      = l.store.entryCount + 1 := by
    have hsum := sumEntries_place (l := l) key old entry fun _ => 1
    rwa [elim_one h.held, ← hold] at hsum
  have hpassBytes : (l.place key old entry).store.passBytes = l.store.passBytes := rfl
  have hplaced : (l.place key old entry).store.order.length = order.length + 1 := by
    rw [horder, (perm_orderInsert hfresh').length_eq, length_cons]
  have hbudget : (l.place key old entry).budget.used = l.budget.used - (old - entry.size) := by
    simp only [place]
    split
    · rfl
    next hle => rw [Nat.sub_eq_zero_of_le (not_lt.mp hle), Nat.sub_zero]
  -- what the limits of the cache were checked for
  have hlimits : l.store.order.length - (if old > 0 then 1 else 0) < (cfgs c).maxEntries ∧
      (l.place key old entry).store.entryBytes ≤ (cfgs c).maxMemory := by
    rw [fitsHere, Bool.or_eq_true, Bool.and_eq_true, decide_eq_true_eq, decide_eq_true_eq,
      decide_eq_true_eq] at hfit
    rcases hfit with hnone | ⟨hfew, hfits⟩
    · rw [hnone]
      have halone := entryBytes_of_alone h.held key (hold ▸ hnone)
      exact ⟨(cfgs c).max_entries, by omega⟩
    · exact ⟨hfew, by omega⟩
  refine ⟨if_pos ?_, ⟨?_, hs.passMemory, ?_, fun n k => ?_, ?_, fun k e he => ?_, hlimits.2, ?_,
    hs.maxPasses⟩, h.others, ?_, ?_, ?_⟩
  · exact ⟨by show l.oldSize key ≤ _; omega, by omega⟩
  · omega
  · rw [horder]
    exact sorted_orderInsert hfresh' hsorted
  · rw [horder, (perm_orderInsert hfresh').mem_iff, mem_cons, hmem, entryAt_place, hs.order]
    by_cases hk : k = key
    · rw [hk, if_pos rfl]
      constructor
      · rintro (heq | ⟨hne, -⟩)
        · cases heq
          exact ⟨entry, rfl, rfl⟩
        · exact absurd rfl hne
      rintro ⟨e, he, rfl⟩
      cases he
      exact .inl rfl
    rw [if_neg hk]
    constructor
    · rintro (heq | ⟨-, he⟩)
      · exact absurd (Prod.mk.inj heq).2 hk
      · exact he
    intro he
    exact .inr ⟨hk, he⟩
  · omega
  · rw [entryAt_place] at he
    split at he
    · cases he
      exact hpos
    · exact hs.sizes k e he
  · omega
  · show (l.place key old entry).budget.used = _ + othersMemory c 0 l.others + 0
    omega
  · omega
  rw [← h.limit]
  simp only [place]
  split <;> rfl

structure Fits (cfg : Settings) (s : Store) (key : Key) (entry : Entry) : Prop where
  size : entry.size ≤ cfg.maxMemory
  positive : 0 < entry.size
  fresh : ∀ k e, s.entryAt k = some e → e.seq = entry.seq → k = key

lemma insert_spec (hlimit : limit ≠ 0) (h : l.Exact cfgs limit c 0) {entry : Entry}
    (hfits : Fits (cfgs c) l.store key entry) (now : Nat) (hlocked : locked c) :
    l.insert? (cfgs c) key entry now locked = some (l.insert (cfgs c) key entry now locked) ∧
      (l.insert (cfgs c) key entry now locked).Exact cfgs limit c 0 := by
  obtain ⟨hpurge, hgo⟩ := purge_spec h.held now
  have hwithin := within_purge l now
  have hexact := h.letsGo hgo
  generalize hold : (l.purge now).oldSize key = old
  obtain ⟨hclaim, hexact', hentry⟩ := claimRoom_spec hlimit (entry.size - old) now hlocked hexact
    hold.symm
  have hwithin' :=
    hwithin.trans (within_claimRoom (l.purge now) key old (entry.size - old) now locked)
  have hold' : ((((l.purge now).store.map.lookup key).bind Slot.entry).elim 0 Entry.size) =
    old := hold
  simp only [insert?, insert, hpurge, bind_eq_bind, bind_some, hold', hclaim]
  generalize (l.purge now).claimRoom key old (entry.size - old) now locked = claimed at *
  cases hclaimed : claimed.2 with
  | false =>
    rw [hclaimed] at hexact'
    exact ⟨rfl, hexact'⟩
  | true =>
    rw [hclaimed] at hexact'
    have hold₁ : old = claimed.1.oldSize key := by
      rw [← hold, oldSize, oldSize, hentry]
    obtain ⟨hmake, hexact₂, hentry₂, hfit⟩ :=
      makeRoomHere_spec entry.size claimed.1.store.order.length hexact' hold₁ (Nat.sub_le _ _)
    have hwithin₂ := hwithin'.trans (within_makeRoomHere (cfgs c) key old entry.size
      claimed.1.store.order.length claimed.1)
    generalize makeRoomHere (cfgs c) key old entry.size claimed.1.store.order.length claimed.1 = l₂
      at *
    have hold₂ : old = l₂.oldSize key := by
      rw [hold₁, oldSize, oldSize, hentry₂]
    obtain ⟨hplace, hexact₃⟩ := place_spec hexact₂ hold₂ hfit hfits.size hfits.positive
      fun k hk => by
        obtain ⟨e, he, hseq⟩ := (hexact₂.store.order _ _).mp hk
        exact hfits.fresh k e (hwithin₂.store.entry k e he) hseq
    simp only [if_true, hmake, bind_some]
    exact ⟨hplace, hexact₃⟩

end Ledger

def landed (slot : Slot) (flight : Nat) (failed : Bool) (now : Nat) : Slot :=
  let slot := if slot.flight = some flight then { slot with flight := none } else slot
  if failed then { slot with failed := some now }
  else if slot.entry.any fun e => e.freshUntil > now then { slot with failed := none }
  else slot

lemma entry_landed (slot : Slot) (flight : Nat) (failed : Bool) (now : Nat) :
    (landed slot flight failed now).entry = slot.entry := by
  simp only [landed]
  split_ifs <;> rfl

variable {cfgs : Nat → Settings} {limit c extra : Nat} {l : Ledger}

lemma Ledger.Exact.alike (h : l.Exact cfgs limit c extra) {s' : Store} (hs' : l.store.Alike s') :
    Ledger.Exact cfgs limit c extra { l with store := s' } := by
  refine ⟨hs'.exact h.store, h.others, ?_, h.bounded, h.limit⟩
  rw [hs'.memory]
  exact h.used

lemma exact_land (h : l.Exact cfgs limit c extra) (key : Key) (flight : Nat) (failed : Bool)
    (now : Nat) : (land l key flight failed now).Exact cfgs limit c extra := by
  cases hslot : l.store.map.lookup key with
  | none =>
    simp only [land, hslot]
    exact h
  | some slot =>
    have hland : land l key flight failed now = { l with store := { l.store with
        map := if (landed slot flight failed now).flight.isNone &&
            (landed slot flight failed now).entry.isNone then l.store.map.erase key
          else l.store.map.insert key (landed slot flight failed now) } } := by
      rw [land, hslot]
      rfl
    have hentry : (landed slot flight failed now).entry = l.store.entryAt key := by
      rw [entry_landed, Store.entryAt, hslot]
      rfl
    rw [hland]
    split
    next hnone =>
      rw [Bool.and_eq_true, hentry, isNone_iff_eq_none, isNone_iff_eq_none] at hnone
      exact h.alike (Store.alike_erase hnone.2)
    · exact h.alike (Store.alike_insert hentry)

lemma exact_markFailed (h : l.Exact cfgs limit c extra) (key : Key) (now : Nat) :
    (markFailed l key now).Exact cfgs limit c extra := by
  cases hslot : l.store.map.lookup key with
  | none =>
    simp only [markFailed, hslot]
    exact h
  | some slot =>
    simp only [markFailed, hslot]
    refine h.alike (Store.alike_insert ?_)
    rw [Store.entryAt, hslot]
    rfl

variable {entry : Option Entry}

lemma putEntry_spec (hlimit : limit ≠ 0) (h : l.Exact cfgs limit c 0) {key : Key} (now : Nat)
    {locked : Nat → Bool} (hlocked : locked c)
    (hfits : ∀ e, entry = some e → Ledger.Fits (cfgs c) l.store key e) :
    putChecked? (cfgs c) l key entry now locked = some (putEntry (cfgs c) l key entry now locked) ∧
      (putEntry (cfgs c) l key entry now locked).Exact cfgs limit c 0 := by
  cases entry with
  | none => exact ⟨rfl, h⟩
  | some e =>
    obtain ⟨hinsert, hexact⟩ := insert_spec hlimit h (hfits e rfl) now hlocked
    obtain ⟨hunpass, hgo, -⟩ := unpass_spec hexact.held key
    refine ⟨?_, hexact.letsGo hgo⟩
    simp only [putChecked?, hinsert, bind_eq_bind, bind_some, hunpass]
    rfl

lemma leave_spec (hlimit : limit ≠ 0) (h : l.Exact cfgs limit c 0) (key : Key) (mark : Mark)
    (now : Nat) {locked : Nat → Bool} (hlocked : locked c) :
    leave? (cfgs c) l key mark now locked = some (leave (cfgs c) l key mark now locked) ∧
      (leave (cfgs c) l key mark now locked).Exact cfgs limit c 0 := by
  cases mark with
  | strike varies => exact strike_spec hlimit h key varies now hlocked
  | reset =>
    obtain ⟨hunpass, hgo, -⟩ := unpass_spec h.held key
    exact ⟨hunpass, h.letsGo hgo⟩
  | nothing | failed => exact ⟨rfl, h⟩

/-- **The end of a lead keeps the accounts**, and no subtraction on the way goes below zero. -/
theorem finish_spec (hlimit : limit ≠ 0) (h : l.Exact cfgs limit c 0) {key : Key} (flight : Nat)
    (mark : Mark) (now : Nat) {locked : Nat → Bool} (hlocked : locked c)
    (hfits : ∀ e, entry = some e → Ledger.Fits (cfgs c) l.store key e) :
    finish? (cfgs c) l key flight entry mark now locked =
        some (finish (cfgs c) l key flight entry mark now locked) ∧
      (finish (cfgs c) l key flight entry mark now locked).Exact cfgs limit c 0 := by
  obtain ⟨hput, hexact⟩ := putEntry_spec hlimit h now hlocked hfits
  obtain ⟨hleave, hexact'⟩ := leave_spec hlimit hexact key mark now hlocked
  refine ⟨?_, exact_land hexact' key flight mark.isFailed now⟩
  rw [finish?, hput]
  dsimp only [bind_eq_bind, bind_some]
  rw [hleave]
  rfl

end Rproxy.Cache
