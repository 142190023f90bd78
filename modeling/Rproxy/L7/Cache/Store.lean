import Rproxy.Data.Table
import Rproxy.L7.Cache.Answer

/-!
# The store of a cache

A slot for each key with the answer kept and the request on its way, the order of the answers, and
the strikes against keys.
-/

namespace Rproxy.Cache

abbrev Key := List UInt8

/-- `Slot`; a request on its way is known by the number of its flight. -/
structure Slot where
  entry : Option Entry := none
  flight : Option Nat := none
  failed : Option Nat := none

structure Pass where
  strikes : Nat
  expires : Nat
  varies : Varies
  size : Nat

def strikesToPass : Nat := 3

def Pass.on (p : Pass) (now : Nat) (request : HeaderMap) : Bool :=
  p.strikes ≥ strikesToPass && now < p.expires && sameValues p.varies request

structure Store where
  map : Table Key Slot
  order : List (Nat × Key)
  memory : Nat
  passMemory : Nat
  passes : Table Key Pass

def Store.empty : Store where
  map := ∅
  order := []
  memory := 0
  passMemory := 0
  passes := ∅

structure Budget where
  limit : Nat
  used : Nat

def Budget.reserve (b : Budget) (n : Nat) : Option Budget :=
  if b.limit = 0 ∨ b.used + n ≤ b.limit then some { b with used := b.used + n } else none

def Budget.release (b : Budget) (n : Nat) : Budget :=
  { b with used := b.used - n }

def Budget.free (b : Budget) : Option Nat :=
  if b.limit = 0 then none else some (b.limit - b.used)

structure Ledger where
  store : Store
  budget : Budget
  others : List Store

namespace Ledger
variable (l : Ledger)

def free (n : Nat) : Ledger :=
  { l with store := { l.store with memory := l.store.memory - n }, budget := l.budget.release n }

def unorder (seq : Nat) : Ledger :=
  { l with store := { l.store with order := l.store.order.filter fun o => o.1 ≠ seq } }

def emptySlot (key : Key) (slot : Slot) : Ledger :=
  let map :=
    if slot.flight = none then l.store.map.erase key
    else l.store.map.insert key { slot with entry := none }
  { l with store := { l.store with map } }

def take (key : Key) : Ledger :=
  match l.store.map.lookup key with
  | none => l
  | some slot =>
    match slot.entry with
    | some e => ((l.emptySlot key slot).unorder e.seq).free e.size
    | none => l.emptySlot key slot

def takeOldest : Ledger :=
  match l.store.order with
  | [] => l
  | (seq, key) :: _ => (l.take key).unorder seq

def takeOldestBut (key : Key) : Option Ledger :=
  (l.store.order.find? fun o => o.2 ≠ key).map fun o => l.take o.2

def dropPasses (gone : List (Key × Pass)) : Ledger :=
  let freed := (gone.map fun p => p.2.size).sum
  { l with
    store := { l.store with
      passes := l.store.passes.eraseAll (gone.map Prod.fst)
      passMemory := l.store.passMemory - freed } }.free freed

def sweep (now : Nat) : Ledger :=
  l.dropPasses (l.store.passes.pairs.filter fun p => p.2.expires ≤ now)

def oldestDead (now : Nat) : Bool :=
  match l.store.order with
  | [] => false
  | (_, key) :: _ =>
    match (l.store.map.lookup key).bind Slot.entry with
    | some e => e.staleUntil ≤ now
    | none => true

def purgeLoop (now : Nat) : Nat → Ledger → Ledger
  | 0, l => l
  | n + 1, l => if l.oldestDead now then purgeLoop now n l.takeOldest else l

def purge (now : Nat) : Ledger :=
  let l := l.sweep now
  purgeLoop now l.store.order.length l

def purgeOthers (now : Nat) (locked : Nat → Bool) : Ledger :=
  go 0 l.others l.budget []
where
  /-- The stores still to look at, the budget so far, and those looked at, last first. -/
  go (i : Nat) : List Store → Budget → List Store → Ledger
    | [], budget, done => { l with budget, others := done.reverse }
    | s :: rest, budget, done =>
      if locked i then go (i + 1) rest budget (s :: done)
      else
        let p := Ledger.purge ⟨s, budget, []⟩ now
        go (i + 1) rest p.budget (p.store :: done)

def reserve (l : Ledger) (n : Nat) : Option Ledger :=
  (l.budget.reserve n).map fun budget => { l with budget }

def unpass (key : Key) : Ledger :=
  match l.store.passes.lookup key with
  | none => l
  | some p => l.dropPasses [(key, p)]

def nextStrike (key : Key) (now : Nat) : Nat :=
  match l.store.passes.lookup key with
  | some p => if now < p.expires then min (p.strikes + 1) 255 else 1
  | none => 1

def keepPass (key : Key) (pass : Pass) : Ledger :=
  { l with
    store := { l.store with
      memory := l.store.memory + pass.size
      passMemory := l.store.passMemory + pass.size
      passes := l.store.passes.insert key pass } }

def makePassRoom (now max : Nat) : Ledger :=
  if l.store.passes.pairs.length < max then l
  else
    let l := l.sweep now
    if l.store.passes.pairs.length < max then l else l.dropPasses l.store.passes.pairs

def strike (key : Key) (varies : Varies) (now ttl max : Nat) (locked : Nat → Bool) : Ledger :=
  let strikes := l.nextStrike key now
  let l := (l.unpass key).makePassRoom now max
  let size := key.length + (varies.map fun v => lineSize v.1 (v.2.elim 0 List.length)).sum + 96
  let pass := { strikes, expires := now + ttl, varies, size }
  match l.reserve size with
  | some l => l.keepPass key pass
  | none =>
    let l := l.purgeOthers now locked
    match l.reserve size with
    | some l => l.keepPass key pass
    | none => l

def droppable (old : Nat) : Nat :=
  l.store.memory - l.store.passMemory - old

def makeRoom (key : Key) (old grow : Nat) : Nat → Ledger → Ledger × Bool
  | 0, l => (l, false)
  | n + 1, l =>
    match l.reserve grow with
    | some l => (l, true)
    | none =>
      if (l.budget.free.any fun f => l.droppable old + f < grow) then (l, false)
      else
        match l.takeOldestBut key with
        | none => (l, false)
        | some l => makeRoom key old grow n l

def fitsHere (cfg : Settings) (old size : Nat) : Bool :=
  let others := l.store.order.length - (if old > 0 then 1 else 0)
  others = 0 || (others < cfg.maxEntries && l.store.memory - old + size ≤ cfg.maxMemory)

def makeRoomHere (cfg : Settings) (key : Key) (old size : Nat) : Nat → Ledger → Ledger
  | 0, l => l
  | n + 1, l =>
    if l.fitsHere cfg old size then l
    else makeRoomHere cfg key old size n ((l.takeOldestBut key).getD l)

def claimRoom (key : Key) (old grow now : Nat) (locked : Nat → Bool) : Ledger × Bool :=
  if grow = 0 then (l, true)
  else
    match l.reserve grow with
    | some l => (l, true)
    | none =>
      let l := l.purgeOthers now locked
      makeRoom key old grow (l.store.order.length + 1) l

def orderInsert (seq : Nat) (key : Key) : List (Nat × Key) → List (Nat × Key)
  | [] => [(seq, key)]
  | o :: rest =>
    if seq < o.1 then (seq, key) :: o :: rest
    else if seq = o.1 then (seq, key) :: rest
    else o :: orderInsert seq key rest

def place (key : Key) (old : Nat) (entry : Entry) : Ledger :=
  let slot := (l.store.map.lookup key).getD {}
  let (order, memory) :=
    match slot.entry with
    | some e => (l.store.order.filter fun o => o.1 ≠ e.seq, l.store.memory - e.size)
    | none => (l.store.order, l.store.memory)
  { l with
    store := { l.store with
      memory := memory + entry.size
      order := orderInsert entry.seq key order
      map := l.store.map.insert key { slot with entry := some entry } }
    budget := if old > entry.size then l.budget.release (old - entry.size) else l.budget }

def insert (cfg : Settings) (key : Key) (entry : Entry) (now : Nat) (locked : Nat → Bool) :
    Ledger :=
  let l := l.purge now
  let old := ((l.store.map.lookup key).bind Slot.entry).elim 0 Entry.size
  let claimed := l.claimRoom key old (entry.size - old) now locked
  if claimed.2 then
    (makeRoomHere cfg key old entry.size claimed.1.store.order.length claimed.1).place key old entry
  else claimed.1

end Ledger

/-! ## What becomes of the slots -/

def Store.entryAt (s : Store) (key : Key) : Option Entry :=
  (s.map.lookup key).bind Slot.entry

def Store.flightAt (s : Store) (key : Key) : Option Nat :=
  (s.map.lookup key).bind Slot.flight

structure Store.Within (s s' : Store) : Prop where
  entry : ∀ key e, s'.entryAt key = some e → s.entryAt key = some e
  flight : ∀ key, s'.flightAt key = s.flightAt key

lemma Store.Within.refl (s : Store) : s.Within s := ⟨fun _ _ h => h, fun _ => rfl⟩

lemma Store.Within.trans {s s' s'' : Store} (h : s.Within s') (h' : s'.Within s'') :
    s.Within s'' :=
  ⟨fun key e he => h.entry key e (h'.entry key e he), fun key =>
    (h'.flight key).trans (h.flight key)⟩

lemma Store.Within.of_map {s s' : Store} (h : s'.map = s.map) : s.Within s' := by
  constructor
  · intro key e he
    rwa [Store.entryAt, h] at he
  intro key
  rw [Store.flightAt, h, Store.flightAt]

namespace Ledger

structure Within (l l' : Ledger) : Prop where
  store : l.store.Within l'.store
  others : List.Forall₂ Store.Within l.others l'.others

lemma Within.of_map {l l' : Ledger} (hstore : l'.store.map = l.store.map)
    (hothers : l'.others = l.others) : l.Within l' := by
  refine ⟨.of_map hstore, ?_⟩
  rw [hothers]
  exact List.forall₂_same.mpr fun s _ => .refl s

variable (l : Ledger)

lemma Within.refl : l.Within l := .of_map rfl rfl

lemma forall₂_trans {a b c : List Store} (h : List.Forall₂ Store.Within a b)
    (h' : List.Forall₂ Store.Within b c) : List.Forall₂ Store.Within a c := by
  induction h generalizing c with
  | nil =>
    cases h'
    exact .nil
  | cons hab _ ih =>
    cases h' with
    | cons hbc hrest => exact .cons (hab.trans hbc) (ih hrest)

lemma Within.trans {l l' l'' : Ledger} (h : l.Within l') (h' : l'.Within l'') : l.Within l'' :=
  ⟨h.store.trans h'.store, forall₂_trans h.others h'.others⟩

lemma within_emptySlot {l : Ledger} {key : Key} {slot : Slot}
    (hslot : l.store.map.lookup key = some slot) : l.Within (l.emptySlot key slot) := by
  refine ⟨⟨fun k e he => ?_, fun k => ?_⟩, List.forall₂_same.mpr fun s _ => .refl s⟩
  · simp only [emptySlot, Store.entryAt] at he ⊢
    split at he
    · rw [Table.lookup_erase_eq] at he
      split at he
      · cases he
      · exact he
    rw [Table.lookup_insert_eq] at he
    split at he
    · cases he
    · exact he
  simp only [emptySlot, Store.flightAt]
  split
  next hflight =>
    rw [Table.lookup_erase_eq]
    split
    next hk =>
      subst hk
      rw [hslot]
      exact hflight.symm
    · rfl
  · rw [Table.lookup_insert_eq]
    split
    next hk =>
      subst hk
      rw [hslot]
      rfl
    · rfl

lemma within_take (key : Key) : l.Within (l.take key) := by
  unfold take
  split
  · exact .refl l
  rename_i slot hslot
  split
  · exact (within_emptySlot hslot).trans (.of_map rfl rfl)
  · exact within_emptySlot hslot

lemma within_takeOldest : l.Within l.takeOldest := by
  unfold takeOldest
  split
  · exact .refl l
  next key _ _ => exact (within_take l _).trans (.of_map rfl rfl)

lemma within_takeOldestBut {l l' : Ledger} {key : Key} (h : l.takeOldestBut key = some l') :
    l.Within l' := by
  obtain ⟨o, -, rfl⟩ := Option.map_eq_some_iff.mp h
  exact within_take l o.2

lemma within_purgeLoop (now n : Nat) (l : Ledger) : l.Within (purgeLoop now n l) := by
  induction n generalizing l with
  | zero => exact .refl l
  | succ n ih =>
    unfold purgeLoop
    split
    · exact (within_takeOldest l).trans (ih _)
    · exact .refl l

lemma within_sweep (now : Nat) : l.Within (l.sweep now) := .of_map rfl rfl

lemma within_purge (now : Nat) : l.Within (l.purge now) :=
  (within_sweep l now).trans (within_purgeLoop now _ (l.sweep now))

lemma within_purgeOthers (now : Nat) (locked : Nat → Bool) :
    l.Within (l.purgeOthers now locked) := by
  have hgo : ∀ (rest : List Store) (i : Nat) (budget : Budget) (done before : List Store),
      List.Forall₂ Store.Within before.reverse done.reverse → before.reverse ++ rest = l.others →
        l.Within (purgeOthers.go l now locked i rest budget done) := by
    intro rest
    induction rest with
    | nil =>
      intro i budget done before hdone hbefore
      refine ⟨.refl _, ?_⟩
      rw [← hbefore, List.append_nil]
      exact hdone
    | cons s rest ih =>
      intro i budget done before hdone hbefore
      have hone : ∀ s', s.Within s' →
          List.Forall₂ Store.Within (s :: before).reverse (s' :: done).reverse := by
        intro s' hs'
        rw [List.reverse_cons, List.reverse_cons]
        exact List.rel_append hdone (.cons hs' .nil)
      have hsplit : (s :: before).reverse ++ rest = l.others := by
        simpa using hbefore
      unfold purgeOthers.go
      split
      · exact ih _ _ _ (s :: before) (hone s (.refl s)) hsplit
      · exact ih _ _ _ (s :: before) (hone _ (within_purge ⟨s, budget, []⟩ now).store) hsplit
  exact hgo l.others 0 l.budget [] [] .nil rfl

lemma within_reserve {l l' : Ledger} {n : Nat} (h : l.reserve n = some l') : l.Within l' := by
  obtain ⟨b, -, rfl⟩ := Option.map_eq_some_iff.mp h
  exact .of_map rfl rfl

lemma within_unpass (key : Key) : l.Within (l.unpass key) := by
  unfold unpass
  split
  · exact .refl l
  · exact .of_map rfl rfl

lemma within_makePassRoom (now max : Nat) : l.Within (l.makePassRoom now max) := by
  simp only [makePassRoom]
  split
  · exact .refl l
  split
  · exact within_sweep l now
  · exact (within_sweep l now).trans (.of_map rfl rfl)

lemma within_strike (key : Key) (varies : Varies) (now ttl max : Nat)
    (locked : Nat → Bool) : l.Within (l.strike key varies now ttl max locked) := by
  simp only [strike]
  refine (within_unpass l key).trans ((within_makePassRoom _ now max).trans ?_)
  split
  next h => exact (within_reserve h).trans (.of_map rfl rfl)
  refine (within_purgeOthers _ now locked).trans ?_
  split
  next h => exact (within_reserve h).trans (.of_map rfl rfl)
  · exact .refl _

lemma within_makeRoom (key : Key) (old grow n : Nat) (l : Ledger) :
    l.Within (makeRoom key old grow n l).1 := by
  induction n generalizing l with
  | zero => exact .refl l
  | succ n ih =>
    unfold makeRoom
    split
    next h => exact within_reserve h
    split
    · exact .refl l
    split
    · exact .refl l
    next h => exact (within_takeOldestBut h).trans (ih _)

lemma within_makeRoomHere (cfg : Settings) (key : Key) (old size n : Nat) (l : Ledger) :
    l.Within (makeRoomHere cfg key old size n l) := by
  induction n generalizing l with
  | zero => exact .refl l
  | succ n ih =>
    unfold makeRoomHere
    split
    · exact .refl l
    refine Within.trans ?_ (ih _)
    cases h : l.takeOldestBut key with
    | none => exact .refl l
    | some l' => exact within_takeOldestBut h

lemma within_claimRoom (key : Key) (old grow now : Nat) (locked : Nat → Bool) :
    l.Within (l.claimRoom key old grow now locked).1 := by
  unfold claimRoom
  split
  · exact .refl l
  split
  next h => exact within_reserve h
  · exact (within_purgeOthers l now locked).trans (within_makeRoom key old grow _ _)

lemma entryAt_place (key : Key) (old : Nat) (entry : Entry) (k : Key) :
    (l.place key old entry).store.entryAt k
      = if k = key then some entry else l.store.entryAt k := by
  simp only [place, Store.entryAt, Table.lookup_insert_eq]
  split <;> rfl

lemma flightAt_place (key : Key) (old : Nat) (entry : Entry) (k : Key) :
    (l.place key old entry).store.flightAt k = l.store.flightAt k := by
  simp only [place, Store.flightAt, Table.lookup_insert_eq]
  split
  next hk =>
    subst hk
    cases l.store.map.lookup k <;> rfl
  · rfl

lemma insert_within (cfg : Settings) (key : Key) (entry : Entry) (now : Nat)
    (locked : Nat → Bool) : ∃ l', l.Within l' ∧
      (l.insert cfg key entry now locked = l' ∨
        ∃ old, l.insert cfg key entry now locked = l'.place key old entry) := by
  simp only [insert]
  have hclaim := (within_purge l now).trans (within_claimRoom (l.purge now) key
    (((l.purge now).store.map.lookup key).bind Slot.entry |>.elim 0 Entry.size)
    (entry.size - (((l.purge now).store.map.lookup key).bind Slot.entry |>.elim 0 Entry.size)) now
    locked)
  split
  · exact ⟨_, hclaim.trans (within_makeRoomHere cfg key _ _ _ _), .inr ⟨_, rfl⟩⟩
  · exact ⟨_, hclaim, .inl rfl⟩

end Ledger
end Rproxy.Cache
