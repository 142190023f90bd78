import Rproxy.Dpdk.Owned

/-!
# One session for each client, on several lcores

Calls of several lcores run interleaved, section by section; a section waits for the locks it takes
(`Ready`).
-/

namespace Rproxy.Dpdk
open List Option
variable {g : Hand} {gs : List Hand} {o : Op}

abbrev Lcores := Configuration Op Ret Engine Call

variable (x : Lcores) (cfg : Config)

def Lcores.nextOp (i : ℕ) : Option Op := (x.threads[i]?).bind fun t => t.rest.next?

def Ready : Event Env Call → Bool
  | .start _ => true
  | .step i _ => (x.nextOp i).all fun o => o.ready x.state

def NoRace : Event Env Call → Prop
  | .start _ => True
  | .step i _ => ∀ p s, x.nextOp i = some (.install p s) → ∀ j, x.nextOp j ≠ some (.forget s.key p)

/-! ## The locks of the shards -/

def heldAfter (shards : List ℕ) : Op → List ℕ
  | .lockShard key => shardOf key :: shards
  | .unlockShard shard => shards.erase shard
  | _ => shards

lemma Book.shards_forget {b : Book} {key : FwdKey} {p : Place} :
    (b.forget key p).shards = b.shards := by
  rw [Book.forget]
  split <;> rfl

lemma Book.shards_after (b : Book) (o : Op) (r : Ret o) :
    (b.after cfg o r).shards = heldAfter b.shards o := by
  have htake : ∀ {p s shard}, (b.takeOut p s shard).shards = b.shards := by
    intro p s shard
    rw [Book.takeOut]
    split
    · exact shards_forget
    · rfl
  cases o with
  | forget key p => exact shards_forget
  | clearRow row =>
    show (b.clear row).shards = b.shards
    rw [Book.clear]
    split
    · rfl
    · exact shards_forget
  | endWaiting p id shard =>
    cases r with
    | none => rfl
    | some s => exact htake
  | probe p shard =>
    rcases r with _ | _ | ⟨_ | s⟩
    · rfl
    · rfl
    · rfl
    · exact htake
  | popWaiting li net | sweepSlot p now => cases r <;> rfl
  | _ => rfl

structure Exclusive (shards : List ℕ) (gs : List Hand) : Prop where
  held : ∀ (i : ℕ) (g : Hand) (k : FwdKey), gs[i]? = some g → g.shard = some k → shardOf k ∈ shards
  apart : ∀ (i j : ℕ) (g g' : Hand) (k k' : FwdKey), i ≠ j → gs[i]? = some g → gs[j]? = some g' →
    g.shard = some k → g'.shard = some k' → shardOf k ≠ shardOf k'

lemma Hand.shard_next (r : Ret o) (hok : Hand.Ok o g) :
    (∃ key, o = .lockShard key ∧ (Hand.next o r g).shard = some key) ∨
      (∃ k, o = .unlockShard (shardOf k) ∧ g.shard = some k ∧ (Hand.next o r g).shard = none) ∨
      (∀ shards, heldAfter shards o = shards) ∧ (Hand.next o r g).shard = g.shard := by
  cases hdues : g.dues with
  | cons d ds =>
    rw [Hand.next_of_owed hdues]
    rw [Hand.Ok, hdues] at hok
    refine .inr (.inr ⟨fun shards => ?_, rfl⟩)
    rw [hok]
    cases d <;> rfl
  | nil =>
    rw [Hand.next_of_free hdues]
    rw [Hand.Ok, hdues] at hok
    cases o with
    | lockShard key => exact .inl ⟨key, rfl, rfl⟩
    | unlockShard shard =>
      obtain ⟨k, hk, rfl⟩ := map_eq_some_iff.mp hok
      exact .inr (.inl ⟨k, rfl, hk, rfl⟩)
    | forward p key u port now found | endWaiting p id shard | probe p shard | sweepSlot p now =>
      cases r <;> exact .inr (.inr ⟨fun _ => rfl, rfl⟩)
    | _ => exact .inr (.inr ⟨fun _ => rfl, rfl⟩)

lemma Exclusive.concat {shards : List ℕ} (h : Exclusive shards gs) :
    Exclusive shards (gs ++ [Hand.empty]) := by
  have hold : ∀ (i : ℕ) (g : Hand) (k : FwdKey), (gs ++ [Hand.empty])[i]? = some g →
      g.shard = some k → gs[i]? = some g := by
    intro i g k hi hk
    rcases getElem?_concat_cases hi with hi | ⟨-, rfl⟩
    · exact hi
    · cases hk
  exact ⟨fun i g k hi hk => h.held i g k (hold i g k hi hk) hk,
    fun i j g g' k k' hij hi hj hk hk' =>
      h.apart i j g g' k k' hij (hold i g k hi hk) (hold j g' k' hj hk') hk hk'⟩

lemma Exclusive.set {shards : List ℕ} {i : ℕ} (h : Exclusive shards gs) (hi : gs[i]? = some g)
    (hok : Hand.Ok o g) (r : Ret o) (hfree : ∀ key, o = .lockShard key → shardOf key ∉ shards) :
    Exclusive (heldAfter shards o) (gs.set i (Hand.next o r g)) := by
  -- the shard of this call is held, and that of no other
  have hmine : ∀ k, (Hand.next o r g).shard = some k → shardOf k ∈ heldAfter shards o ∧
      ∀ j g' k', j ≠ i → gs[j]? = some g' → g'.shard = some k' → shardOf k ≠ shardOf k' := by
    intro k hk
    rcases Hand.shard_next r hok with ⟨key, rfl, hkey⟩ | ⟨k', -, -, hnone⟩ | ⟨hshards, hsame⟩
    · cases hkey.symm.trans hk
      refine ⟨mem_cons_self, fun j g' k' _ hj hk' heq => hfree k rfl ?_⟩
      rw [heq]
      exact h.held j g' k' hj hk'
    · cases hnone.symm.trans hk
    rw [hsame] at hk
    rw [hshards]
    exact ⟨h.held i g k hi hk, fun j g' k' hj hg' hk' =>
      h.apart i j g g' k k' hj.symm hi hg' hk hk'⟩
  have hothers : ∀ j g' k', j ≠ i → gs[j]? = some g' → g'.shard = some k' →
      shardOf k' ∈ heldAfter shards o := by
    intro j g' k' hj hg' hk'
    have hmem := h.held j g' k' hg' hk'
    rcases Hand.shard_next r hok with ⟨key, rfl, -⟩ | ⟨k, rfl, hk, -⟩ | ⟨hshards, -⟩
    · exact mem_cons_of_mem _ hmem
    · exact (mem_erase_of_ne (h.apart j i g' g k' k hj hg' hi hk' hk)).mpr hmem
    rw [hshards]
    exact hmem
  refine ⟨fun j g' k hj hk => ?_, fun j j' g' g'' k k' hjj hj hj' hk hk' => ?_⟩
  · rcases getElem?_set_cases hj with ⟨-, rfl⟩ | ⟨hne, hj⟩
    · exact (hmine k hk).1
    · exact hothers j g' k hne hj hk
  rcases getElem?_set_cases hj with ⟨rfl, rfl⟩ | ⟨hne, hold⟩
  · rcases getElem?_set_cases hj' with ⟨rfl, rfl⟩ | ⟨hne', hold'⟩
    · exact absurd rfl hjj
    · exact (hmine k hk).2 j' g'' k' hne' hold' hk'
  rcases getElem?_set_cases hj' with ⟨rfl, rfl⟩ | ⟨hne', hold'⟩
  · exact ((hmine k' hk').2 j g' k hne hold hk).symm
  · exact h.apart j j' g' g'' k k' hjj hold hold' hk hk'

/-! ## The runs without the race -/

structure Kept (e : Engine) (gs : List Hand) : Prop where
  owned : e.book.Owned
  holds : ∀ (i : ℕ) (g : Hand), gs[i]? = some g → g.Holds e.book
  exclusive : Exclusive e.shards gs

lemma nextOp_of_due {x : Lcores} {j : ℕ} {k : FwdKey} {p : Place}
    (hF : System.Follows Hand.Ok Hand.next (fun g => g = Hand.empty) x gs) (hg : gs[j]? = some g)
    (hfirst : ∀ k p, Due.row k p ∉ g.dues.tail) (hdue : Due.row k p ∈ g.dues) :
    x.nextOp j = some (.forget k p) := by
  obtain ⟨ds, hdues⟩ : ∃ ds, g.dues = .row k p :: ds := by
    cases hdues : g.dues with
    | nil => simp [hdues] at hdue
    | cons d ds =>
      rw [hdues] at hdue hfirst
      rcases mem_cons.mp hdue with rfl | htail
      · exact ⟨ds, rfl⟩
      · exact absurd htail (hfirst k p)
  have hlt : j < x.threads.length := hF.length ▸ (lt_of_getElem? hg)
  have ht : x.threads[j]? = some x.threads[j] := getElem?_eq_getElem hlt
  have hsafe := hF.safe j _ g ht hg
  rw [Lcores.nextOp, ht, bind_some]
  cases hrest : (x.threads[j]).rest with
  | ret a =>
    rw [hrest] at hsafe
    have hempty : g = Hand.empty := hsafe
    rw [hempty] at hdues
    cases hdues
  | op o k' =>
    rw [hrest] at hsafe
    have hok : Hand.Ok o g := hsafe.1
    rw [Hand.Ok, hdues] at hok
    exact congrArg some hok

lemma Kept.step {cfg : Config} {x : Lcores} {i : ℕ} {env : Env} {c : Call}
    {k : Ret o → Prog Op Ret Unit} (h : Kept x.state gs)
    (hF : System.Follows Hand.Ok Hand.next (fun g => g = Hand.empty) x gs)
    (hready : Ready x (.step i env)) (hrace : NoRace x (.step i env))
    (ht : x.threads[i]? = some ⟨c, .op o k⟩) (hg : gs[i]? = some g) (hok : Hand.Ok o g) :
    Kept (exec cfg env x.state o).1 (gs.set i (Hand.next o (exec cfg env x.state o).2 g)) := by
  obtain ⟨hbook, hsaw⟩ := book_exec cfg env x.state o
  have hnext : x.nextOp i = some o := by rw [Lcores.nextOp, ht]; rfl
  refine ⟨?_, fun j g' hj => ?_, ?_⟩
  · rw [hbook]
    exact h.owned.after cfg (h.holds i g hg) hok hsaw
  · rw [hbook]
    rcases getElem?_set_cases hj with ⟨-, rfl⟩ | ⟨hij, hold⟩
    · exact (h.holds i g hg).after cfg h.owned hok hsaw
    have hholds := h.holds j g' hold
    refine hholds.keeps (Book.change_after cfg hsaw) fun p s ho => ?_
    subst ho
    obtain ⟨-, hshard, -⟩ := hok.free fun d hd => by cases d <;> cases hd
    refine ⟨fun hshard' => h.exclusive.apart i j g g' _ _ hij.symm hg hold hshard hshard' rfl,
      fun hdue => ?_⟩
    exact hrace p s hnext j (nextOp_of_due hF hold hholds.first hdue)
  have hshards : (exec cfg env x.state o).1.shards = heldAfter x.state.shards o := by
    have := congrArg Book.shards hbook
    rwa [Book.shards_after] at this
  rw [hshards]
  refine h.exclusive.set hg hok _ fun key ho => ?_
  subst ho
  rw [Ready, hnext] at hready
  simpa [Op.ready] using hready

lemma Kept.initial : Kept (Engine.initial cfg) [] :=
  ⟨Book.owned_initial cfg, by simp, by simp, by simp⟩

/-- **In every run without the race, every session in a slot has the row of its client**, whatever
the lcores and the sweep do. -/
theorem rows_kept {x : Lcores}
    (hx : (system cfg).Reach (fun x ev => Ready x ev = true ∧ NoRace x ev)
      ⟨Engine.initial cfg, []⟩ x)
    (p : Place) (s : Session) (hs : x.state.slot p = some s) :
    x.state.fwd.lookup s.key = some p := by
  have hghost : ∃ gs, Kept x.state gs ∧
      System.Follows Hand.Ok Hand.next (fun g => g = Hand.empty) x gs := by
    refine hx.ghost (Kept.initial cfg) (fun x gs c s hI _ hs => ?_)
      fun x gs i env c o k g hI hF hcond ht hg hok => hI.step hF hcond.1 hcond.2 ht hg hok
    cases hs
    refine ⟨Hand.empty, safe_program cfg c, hI.owned, fun j g hj => ?_, hI.exclusive.concat⟩
    rw [getElem?_append] at hj
    split at hj
    · exact hI.holds j g hj
    cases mem_singleton.mp (mem_of_getElem? hj)
    exact Hand.holds_empty _
  obtain ⟨gs, hI, -⟩ := hghost
  exact hI.owned.own p s.key s.id (by rw [Engine.who_book, hs]; rfl)

/-! ## The race

A port with the address 10.0.0.1 and two NAT ports; a rule listens there on port 53. A client's
session in the first slot is idle, one of another client is in the second. -/

namespace Race

lemma length_address : ([10, 0, 0, 1] : List UInt8).length = 4 := rfl

def address : Ipv4 := ⟨[10, 0, 0, 1], length_address⟩

lemma length_mac : ([2, 0, 0, 0, 0, 1] : List UInt8).length = 6 := rfl

def config : Config :=
  .withNatPorts [⟨⟨[2, 0, 0, 0, 0, 1], length_mac⟩, [(address, 24)], none⟩] 50000 50001

def rules : Rules := AList.insert ⟨address, 53⟩ (0, 0) ∅

def env : Env where
  phase := .accepting
  admits := true
  target := some ⟨⟨[10, 0, 0, 9], rfl⟩, 53⟩
  starts := true
  up := true
  down := true
  evicted := false
  idle := 60000000000
  retarget := none
  contended := false

def datagram (net sum : UInt8) : List UInt8 :=
  [2, 0, 0, 0, 0, 1, 2, 0, 0, 0, 0, 2, 0x08, 0x00,
   0x45, 0, 0, 28, 0, 0, 0x40, 0, 64, 17, sum, 0xcf, 10, 0, net, 2, 10, 0, 0, 1,
   0x0f, 0xa0, 0, 53, 0, 8, 0, 0]

def client (now : ℕ) : Call := .process rules 0 (datagram 3 0x23) now 4

def steps (i n : ℕ) : List (Event Env Call) := List.replicate n (.step i env)

def begins : List (Event Env Call) := .start (client 0) :: steps 0 18

def loses : List (Event Env Call) :=
  begins ++
  .start (.process rules 0 (datagram 4 0x22) 5000000000 4) :: steps 1 18 ++
  .start (.sweep 6000000000) :: steps 2 2 ++
  .start (client 6000000000) :: steps 3 5 ++
  .start (client 6000000000) :: steps 4 18 ++
  steps 2 4

def lost (x : Lcores) : Bool :=
  (x.threads.all fun t => t.rest.next?.isNone) &&
    (x.state.slot (0, 0)).any fun s => x.state.fwd.lookup s.key = none

end Race

/-- **A session without its row**: after these calls, none of them in progress, the session in the
first slot is not the one that its client's row points to. -/
theorem row_lost : ∃ x : Lcores,
    (system Race.config).Reach (fun x ev => Ready x ev = true) ⟨Engine.initial Race.config, []⟩ x ∧
      (∀ t ∈ x.threads, t.rest.done) ∧
      ∃ s, x.state.slot (0, 0) = some s ∧ x.state.fwd.lookup s.key = none := by
  have htrace : ((system Race.config).trace Ready (fun _ _ _ => id) Race.loses
      ⟨Engine.initial Race.config, []⟩ ()).any (fun x => Race.lost x.1) = true := by
    decide +kernel
  have hrun := System.exists_reach_of_trace (fun _ _ _ h => h) htrace
  obtain ⟨x, hx, hlost⟩ := hrun
  obtain ⟨hdone, hrow⟩ := Bool.and_eq_true_iff.mp hlost
  refine ⟨x, hx, fun t ht => ?_, ?_⟩
  · exact isNone_iff_eq_none.mp (all_eq_true.mp hdone t ht)
  obtain ⟨s, hs, hnone⟩ := (any_eq_true _ _).mp hrow
  exact ⟨s, hs, of_decide_eq_true hnone⟩

lemma noRace_of_alone {x : Lcores} (h : x.threads.length ≤ 1) (ev : Event Env Call) :
    NoRace x ev := by
  cases ev with
  | start c => trivial
  | step i env =>
    intro p s hi j hj
    have hlt : ∀ {n o}, x.nextOp n = some o → n = 0 := by
      intro n o hn
      obtain ⟨t, ht, -⟩ := bind_eq_some_iff.mp hn
      have := lt_of_getElem? ht
      omega
    rw [hlt hi] at hi
    rw [hlt hj] at hj
    cases hi.symm.trans hj

theorem first_session_kept : ∃ x : Lcores,
    (system Race.config).Reach (fun x ev => Ready x ev = true ∧ NoRace x ev)
        ⟨Engine.initial Race.config, []⟩ x ∧
      ∃ s, x.state.slot (0, 0) = some s ∧ x.state.fwd.lookup s.key = some (0, 0) := by
  have htrace : ((system Race.config).trace (fun x ev => Ready x ev && x.threads.length ≤ 1)
      (fun _ _ _ => id) Race.begins ⟨Engine.initial Race.config, []⟩ ()).any
        (fun x => (x.1.state.slot (0, 0)).isSome) = true := by
    decide +kernel
  have hrun : ∃ x : Lcores, (system Race.config).Reach
      (fun x ev => Ready x ev = true ∧ NoRace x ev) ⟨Engine.initial Race.config, []⟩ x ∧
        (x.state.slot (0, 0)).isSome = true := by
    refine System.exists_reach_of_trace (fun ev _ x hok => ?_) htrace
    obtain ⟨hready, halone⟩ := Bool.and_eq_true_iff.mp hok
    exact ⟨hready, noRace_of_alone (of_decide_eq_true halone) ev⟩
  obtain ⟨x, hx, hsome⟩ := hrun
  obtain ⟨s, hs⟩ := isSome_iff_exists.mp hsome
  exact ⟨x, hx, s, hs, rows_kept Race.config hx (0, 0) s hs⟩

end Rproxy.Dpdk
