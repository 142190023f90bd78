import Rproxy.Dpdk.Book

/-!
# What a call has in its hands

Between its sections a call holds a shard and a slot, carries stale rows, and owes sections that the
end or the beginning of a session asks of it.
-/

namespace Rproxy.Dpdk

inductive Due where
  | row (key : FwdKey) (p : Place)
  | stale (r : StaleRow)
  | heldDown (li : ℕ)
  | prefixDown (li : ℕ) (net : UInt32)
  | heldUp (li : ℕ)
  | prefixUp (li : ℕ) (net : UInt32) (n id : ℕ)

def Due.op : Due → Op
  | row key p => .forget key p
  | stale r => .pushStale r
  | heldDown li => .heldDown li
  | prefixDown li net => .prefixDown li net
  | heldUp li => .heldUp li
  | prefixUp li net n id => .prefixUp li net n id

structure Hand where
  shard : Option FwdKey
  fresh : Bool
  slot : Option Place
  dues : List Due
  clearing : List StaleRow

namespace Hand

def empty : Hand := ⟨none, false, none, [], []⟩

def counts (p : Place) (s : Session) : List Due :=
  [.heldDown p.1, .prefixDown p.1 (prefixOf s.key.client.ip)]

def left (p : Place) (s : Session) (shard : ℕ) : List Due :=
  if shard = shardOf s.key then counts p s else .stale ⟨s.key, p, s.id⟩ :: counts p s

def Free (g : Hand) : Op → Prop
  | .clearRow r => g.clearing.head? = some r
  | .takeStale => g.clearing = []
  | .lockShard _ => g.shard = none
  | .unlockShard shard => g.shard.map shardOf = some shard
  | .install p s => g.shard = some s.key ∧ g.fresh = true ∧ g.slot = some p
  | .probe _ shard => g.slot = none ∧ g.shard.map shardOf = some shard
  | .endWaiting _ _ shard => g.slot = none ∧ g.shard.map shardOf = some shard
  | .forget _ _ => False
  | .pushStale _ => False
  | .heldDown _ => False
  | .prefixDown _ _ => False
  | .heldUp _ => False
  | .prefixUp _ _ _ _ => False
  | _ => True

def Ok (o : Op) (g : Hand) : Prop :=
  match g.dues with
  | [] => g.Free o
  | d :: _ => o = d.op

def take (g : Hand) : (o : Op) → Ret o → Hand
  | .forward p key _ _ _ _, none => { g with dues := [.row key p] }
  | .takeStale, rows => { g with clearing := rows }
  | .clearRow _, _ => { g with clearing := g.clearing.tail }
  | .lockShard key, row => { g with shard := some key, fresh := row.isNone }
  | .unlockShard _, _ => { g with shard := none, fresh := false }
  | .endWaiting p _ shard, some s => { g with slot := some p, dues := left p s shard }
  | .probe p shard, .free ended =>
    { g with slot := some p, dues := ended.elim [] fun s => left p s shard }
  | .install p s, id =>
    { g with
      fresh := false
      slot := none
      dues := [.heldUp p.1, .prefixUp p.1 (prefixOf s.key.client.ip) p.2 id] }
  | .unlockSlot _, _ => { g with slot := none }
  | .sweepSlot p _, .ended s => { g with dues := .row s.key p :: counts p s }
  | _, _ => g

def next (o : Op) (r : Ret o) (g : Hand) : Hand :=
  match g.dues with
  | [] => g.take o r
  | _ :: dues => { g with dues := dues }

variable {g : Hand} {o : Op}

lemma Ok.free (h : Ok o g) (ho : ∀ d : Due, o ≠ d.op) : g.dues = [] ∧ g.Free o := by
  rw [Ok] at h
  split at h
  next hdues => exact ⟨hdues, h⟩
  next d _ _ => exact absurd h (ho d)

lemma Ok.owed {d : Due} (h : Ok d.op g) : ∃ ds, g.dues = d :: ds := by
  rw [Ok] at h
  split at h
  · cases d <;> exact h.elim
  rename_i d' ds hdues
  refine ⟨ds, ?_⟩
  cases d <;> cases d' <;> cases h <;> exact hdues

lemma next_of_free (h : g.dues = []) (r : Ret o) : next o r g = g.take o r := by
  rw [next, h]

lemma next_of_owed {d : Due} {ds : List Due} (h : g.dues = d :: ds) (r : Ret o) :
    next o r g = { g with dues := ds } := by
  rw [next, h]

abbrev Safe {α : Type} (p : Prog Op Ret α) (g : Hand) (post : α → Hand → Prop) : Prop :=
  p.Safe Ok next g post

end Hand
open Hand

/-! ## The parts of the calls -/

variable {g : Hand}

lemma safe_act {α : Type} {o : Op} {f : Ret o → Prog Op Ret α} {post : α → Hand → Prop} :
    Safe (act o >>= f) g post ↔ Ok o g ∧ ∀ r, Safe (f r) (next o r g) post := Iff.rfl

variable (p : Place)

variable (s : Session)

lemma safe_countDown (hg : g.dues = counts p s) : Safe (countDown p s) g fun _ g' => g' =
    { g with dues := [] } := by
  obtain ⟨shard, fresh, slot, dues, clearing⟩ := g
  cases hg
  exact ⟨rfl, fun _ => ⟨rfl, fun _ => rfl⟩⟩

lemma safe_endHeld (shard : ℕ) (hg : g.dues = left p s shard) : Safe
    (endHeld p s shard) g fun _ g' => g' = { g with dues := [] } := by
  rw [left] at hg
  rw [endHeld]
  split at hg
  next heq =>
    rw [if_pos heq]
    exact safe_countDown p s hg
  rename_i hne
  rw [if_neg hne]
  obtain ⟨shard', fresh, slot, dues, clearing⟩ := g
  cases hg
  exact ⟨rfl, fun _ => safe_countDown p s rfl⟩

lemma safe_clearStale (hdues : g.dues = []) (hclearing : g.clearing = []) :
    Safe clearStale g fun _ g' => g' = g := by
  obtain ⟨shard, fresh, slot, dues, clearing⟩ := g
  cases hdues
  cases hclearing
  refine ⟨rfl, fun rows => ?_⟩
  induction rows with
  | nil => rfl
  | cons r rows ih => exact ⟨rfl, fun _ => ih⟩

lemma safe_prefixRoom (li : ℕ) (net : UInt32) (shard rounds : ℕ) (hdues : g.dues = [])
    (hslot : g.slot = none) (hshard : g.shard.map shardOf = some shard) :
    Safe (prefixRoom li net shard rounds) g fun _ g' => g' = g := by
  induction rounds with
  | zero => rfl
  | succ rounds ih =>
    obtain ⟨shard', fresh, slot, dues, clearing⟩ := g
    cases hdues
    cases hslot
    refine ⟨trivial, fun found => ?_⟩
    cases found with
    | room | full => rfl
    | waiting n id =>
      refine ⟨⟨rfl, hshard⟩, fun ended => ?_⟩
      cases ended with
      | none => exact ih
      | some s =>
        show Safe (endHeld (li, n) s shard >>= fun _ => act (.unlockSlot (li, n)) >>= fun _ =>
          pure (some (some n))) ⟨shard', fresh, some (li, n), left (li, n) s shard, clearing⟩ _
        refine Prog.Safe.bind (safe_endHeld (li, n) s shard rfl) fun _ g' hg' => ?_
        subst hg'
        exact ⟨trivial, fun _ => rfl⟩

lemma safe_beginSession : Safe (beginSession p s)
    ⟨some s.key, true, some p, [], []⟩ fun _ g' => ∃ fresh, g' =
    ⟨some s.key, fresh, none, [], []⟩ := by
  refine ⟨trivial, fun starts => ?_⟩
  cases starts with
  | false => exact ⟨trivial, fun _ => ⟨true, rfl⟩⟩
  | true =>
    exact ⟨⟨rfl, rfl, rfl⟩, fun id => ⟨rfl, fun _ => ⟨rfl, fun _ => ⟨trivial, fun _ =>
      ⟨false, rfl⟩⟩⟩⟩⟩

lemma safe_onProbe (retry : Prog Op Ret (Option Place)) (found : Engine.Probe)
    (hretry : Safe retry ⟨some s.key, true, none, [], []⟩
      fun _ g' => ∃ fresh, g' = ⟨some s.key, fresh, none, [], []⟩) :
    Safe (onProbe p s retry found)
      ((⟨some s.key, true, none, [], []⟩ : Hand).take (.probe p (shardOf s.key)) found)
      fun _ g' => ∃ fresh, g' = ⟨some s.key, fresh, none, [], []⟩ := by
  rcases found with _ | _ | ⟨_ | ended⟩
  · exact hretry
  · exact hretry
  · exact safe_beginSession p s
  refine (safe_endHeld p ended (shardOf s.key) rfl).bind fun _ g' hg' => ?_
  subst hg'
  exact safe_beginSession p s

variable (cfg : Config)

lemma safe_takeSlot (rules : Rules) (li : ℕ) (s : Session) (ns : List ℕ) :
    Safe (takeSlot cfg rules li s ns) ⟨some s.key, true, none, [], []⟩ fun _ g' =>
      ∃ fresh, g' = ⟨some s.key, fresh, none, [], []⟩ := by
  induction ns with
  | nil => exact ⟨true, rfl⟩
  | cons n ns ih =>
    rw [takeSlot]
    split
    · exact ih
    · exact safe_act.mpr ⟨⟨rfl, rfl⟩, fun found => safe_onProbe (li, n) s _ found ih⟩

lemma safe_openHeld (port li rule offset : ℕ) (u : Udp4) (now rounds : ℕ) :
    Safe (openHeld cfg port li rule offset u now rounds) ⟨some ⟨u.dst, u.src⟩, true, none, [], []⟩
      fun _ g' => ∃ fresh, g' = ⟨some ⟨u.dst, u.src⟩, fresh, none, [], []⟩ := by
  refine safe_act.mpr ⟨trivial, fun target => ?_⟩
  cases target with
  | none => exact ⟨true, rfl⟩
  | some target =>
    dsimp only
    cases cfg.route target.ip ((cfg.locals[li]?).elim 0 Prod.snd) with
    | none => exact ⟨true, rfl⟩
    | some r =>
      refine Prog.Safe.bind (safe_prefixRoom _ _ _ rounds rfl rfl rfl) fun freed g' hg' => ?_
      subst hg'
      cases freed with
      | none => exact ⟨true, rfl⟩
      | some freed =>
        exact ⟨trivial, fun rules => ⟨trivial, fun cursor => safe_takeSlot cfg rules _ _ _⟩⟩

lemma safe_openLocked (port li rule offset : ℕ) (u : Udp4) (now rounds : ℕ) :
    Safe (openLocked cfg port li rule offset u now rounds) empty fun _ g' => g' = empty := by
  refine safe_act.mpr ⟨rfl, fun row => ?_⟩
  cases row with
  | some p => exact ⟨rfl, fun _ => rfl⟩
  | none =>
    refine Prog.Safe.bind (safe_openHeld cfg port li rule offset u now rounds)
      fun opened g' hg' => ?_
    obtain ⟨fresh, rfl⟩ := hg'
    exact ⟨rfl, fun _ => rfl⟩

lemma safe_openSession (port li rule offset : ℕ) (u : Udp4) (now rounds : ℕ) :
    Safe (openSession cfg port li rule offset u now rounds) empty fun _ g' => g' = empty := by
  refine safe_act.mpr ⟨trivial, fun stale => ?_⟩
  split
  · refine Prog.Safe.bind (safe_clearStale rfl rfl) fun _ g' hg' => ?_
    subst hg'
    exact safe_openLocked cfg port li rule offset u now rounds
  · exact safe_openLocked cfg port li rule offset u now rounds

lemma safe_deliver (u : Udp4) (port now : ℕ) (found : Bool) :
    Safe (deliver p u port now found) empty fun _ g' => g' = empty := by
  refine safe_act.mpr ⟨trivial, fun verdict => ?_⟩
  cases verdict with
  | some verdict => rfl
  | none => exact ⟨rfl, fun _ => rfl⟩

lemma safe_clientDatagram (port li rule offset : ℕ) (u : Udp4) (now rounds : ℕ) :
    Safe (clientDatagram cfg port li rule offset u now rounds) empty fun _ g' => g' = empty := by
  refine safe_act.mpr ⟨trivial, fun phase => ?_⟩
  split
  · rfl
  refine safe_act.mpr ⟨trivial, fun admitted => ?_⟩
  split
  · rfl
  refine safe_act.mpr ⟨trivial, fun row => ?_⟩
  cases row with
  | some p => exact safe_deliver p u port now true
  | none =>
    refine safe_act.mpr ⟨trivial, fun phase => ?_⟩
    split
    · rfl
    refine Prog.Safe.bind (safe_openSession cfg port li rule offset u now rounds)
      fun opened g' hg' => ?_
    subst hg'
    cases opened with
    | some p => exact safe_deliver p u port now false
    | none => rfl

lemma safe_udp (rules : Rules) (port : ℕ) (u : Udp4) (now rounds : ℕ) :
    Safe (udp cfg rules port u now rounds) empty fun _ g' => g' = empty := by
  rw [udp]
  cases cfg.localOf u.dst.ip with
  | none => rfl
  | some li =>
    have hanswered : Safe (fromBackend cfg li u now) empty fun _ g' => g' = empty := by
      rw [fromBackend]
      split
      · exact ⟨trivial, fun _ => rfl⟩
      · rfl
    refine hanswered.bind fun answered g' hg' => ?_
    subst hg'
    cases answered with
    | some verdict => rfl
    | none =>
      cases rules.lookup u.dst with
      | none => rfl
      | some r => exact safe_clientDatagram cfg port li r.1 r.2 u now rounds

lemma safe_process (rules : Rules) (port : ℕ) (f : List UInt8) (now rounds : ℕ) :
    Safe (process cfg rules port f now rounds) empty fun _ g' => g' = empty := by
  rw [process]
  split
  · exact safe_udp cfg rules port _ now rounds
  · refine safe_act.mpr ⟨trivial, fun _ => ?_⟩
    split <;> rfl
  · split <;> rfl
  · rfl

lemma safe_sweepOne (now : ℕ) : Safe (sweepOne p now) empty fun _ g' => g' = empty := by
  refine safe_act.mpr ⟨trivial, fun swept => ?_⟩
  cases swept with
  | empty | stays => rfl
  | ended s =>
    refine Prog.Safe.bind (p := endFree p s) ?_ fun _ g' hg' => hg'
    exact ⟨rfl, fun _ => safe_countDown p s rfl⟩

lemma safe_sweep (now : ℕ) : Safe (sweep cfg now) empty fun _ g' => g' = empty := by
  refine Prog.Safe.bind (safe_clearStale rfl rfl) fun _ g' hg' => ?_
  subst hg'
  exact (Prog.Safe.mapEach fun p _ => safe_sweepOne p now).bind fun _ _ hg' => hg'

lemma safe_program (c : Call) : Safe (program cfg c) empty fun _ g' => g' = empty := by
  cases c with
  | process rules port f now rounds =>
    exact (safe_process cfg rules port f now rounds).bind fun _ _ hg' => hg'
  | sweep now => exact (safe_sweep cfg now).bind fun _ _ hg' => hg'
  | register ip port count rule | unregister ip port count rule => exact ⟨trivial, fun _ => rfl⟩

end Rproxy.Dpdk
