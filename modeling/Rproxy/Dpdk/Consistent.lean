import Rproxy.Dpdk.Counters
import Rproxy.Dpdk.Lcores

/-!
# The tables of sessions, call by call

When calls run one after another, the tables agree after each (`tables_consistent`): the slots taken
on a source address, its `held` and the sum over its prefixes are one number, and rows and sessions
belong to each other.
-/

namespace Rproxy.Dpdk
open List Option

/-! ## The rows -/

open Book Counter Race Engine

def Leaving (b : Book) (g : Hand) (k : FwdKey) (p : Place) : Prop :=
  Due.row k p ∈ g.dues ∨ ∃ row : StaleRow, row.key = k ∧ row.place = p ∧
    (row ∈ b.stale ∨ Due.stale row ∈ g.dues ∨ row ∈ g.clearing)

def Rows (b : Book) (g : Hand) : Prop := ∀ k p, b.fwd.lookup k = some p →
  (∃ i, b.who p = some (k, i)) ∨ Leaving b g k p

section
variable {cfg : Config} {b : Book} {g : Hand} {o : Op}

lemma Rows.pay {d : Due} {ds : List Due} (h : Rows b g) (hdues : g.dues = d :: ds)
    (r : Ret d.op) :
    Rows (b.after cfg d.op r) { g with dues := ds } := by
  have hold : ∀ {a : Book}, a.who = b.who → a.stale = b.stale →
      (∀ k p, a.fwd.lookup k = some p → b.fwd.lookup k = some p ∧ d ≠ .row k p) →
      (∀ row, d ≠ .stale row) → Rows a { g with dues := ds } := by
    intro a hwho hstale hrows hd k p hrow
    obtain ⟨hrow, hne⟩ := hrows k p hrow
    rcases h k p hrow with ⟨i, hi⟩ | hdue | ⟨row, hk, hp, hmem | hmem | hmem⟩
    · exact .inl ⟨i, hwho ▸ hi⟩
    · rw [hdues] at hdue
      rcases mem_cons.mp hdue with heq | htail
      · exact absurd heq.symm hne
      · exact .inr (.inl htail)
    · exact .inr (.inr ⟨row, hk, hp, .inl (hstale ▸ hmem)⟩)
    · rw [hdues] at hmem
      rcases mem_cons.mp hmem with heq | htail
      · exact absurd heq.symm (hd row)
      · exact .inr (.inr ⟨row, hk, hp, .inr (.inl htail)⟩)
    · exact .inr (.inr ⟨row, hk, hp, .inr (.inr hmem)⟩)
  have hseat : ∀ {a : Book} {li : ℕ} {f : Sheet → Sheet}, (∀ s, (f s).seats = s.seats) →
      a.sheets = b.sheets → (a.onSheet li f).who = b.who := by
    intro a li f hf ha
    funext p
    rw [who, seat_onSheet hf, who, seat, seat, ha]
  cases d with
  | row key q =>
    refine hold who_forget stale_forget (fun k p hrow => ?_) (fun row hd => by cases hd)
    have hforget : (b.forget key q).fwd.lookup k = some p := hrow
    rw [lookup_forget] at hforget
    split at hforget
    · cases hforget
    rename_i hno
    refine ⟨hforget, fun hd => hno ?_⟩
    cases hd
    exact ⟨rfl, hforget⟩
  | stale row =>
    intro k p hrow
    have hrow' : b.fwd.lookup k = some p := hrow
    rcases h k p hrow' with hi | hdue | ⟨row', hk, hp, hmem | hmem | hmem⟩
    · exact .inl hi
    · rw [hdues] at hdue
      exact .inr (.inl (by simpa using hdue))
    · exact .inr (.inr ⟨row', hk, hp, .inl (mem_append_left _ hmem)⟩)
    · rw [hdues] at hmem
      rcases mem_cons.mp hmem with heq | htail
      · cases heq
        exact .inr (.inr ⟨row, hk, hp, .inl (mem_append_right _ (mem_singleton_self _))⟩)
      · exact .inr (.inr ⟨row', hk, hp, .inr (.inl htail)⟩)
    · exact .inr (.inr ⟨row', hk, hp, .inr (.inr hmem)⟩)
  | heldDown li =>
    exact hold (hseat (a := b.lower _) (fun s => rfl) rfl) rfl
      (fun k p hrow => ⟨hrow, fun hd => by cases hd⟩) (fun row hd => by cases hd)
  | prefixDown li net =>
    exact hold (hseat (a := b.lower _) (fun s => s.seats_down net) rfl) rfl
      (fun k p hrow => ⟨hrow, fun hd => by cases hd⟩) (fun row hd => by cases hd)
  | heldUp li | prefixUp li net n id =>
    exact hold (hseat (fun s => rfl) rfl) rfl
      (fun k p hrow => ⟨hrow, fun hd => by cases hd⟩) (fun row hd => by cases hd)

def Left (b : Book) (g : Hand) (k : FwdKey) (p : Place) : Prop :=
  ∃ row : StaleRow, row.key = k ∧ row.place = p ∧ (row ∈ b.stale ∨ row ∈ g.clearing)

variable {p : Place}

lemma Left.leaving {k : FwdKey} (h : Left b g k p) : Leaving b g k p := by
  obtain ⟨row, hk, hp, hmem | hmem⟩ := h
  · exact .inr ⟨row, hk, hp, .inl hmem⟩
  · exact .inr ⟨row, hk, hp, .inr (.inr hmem)⟩

lemma Rows.free (h : Rows b g) (hdues : g.dues = []) {k : FwdKey}
    (hrow : b.fwd.lookup k = some p) : (∃ i, b.who p = some (k, i)) ∨ Left b g k p := by
  rcases h k p hrow with hi | hdue | ⟨row, hk, hp, hmem | hmem | hmem⟩
  · exact .inl hi
  · rw [hdues] at hdue
    cases hdue
  · exact .inr ⟨row, hk, hp, .inl hmem⟩
  · rw [hdues] at hmem
    cases hmem
  · exact .inr ⟨row, hk, hp, .inr hmem⟩

lemma Rows.leave {g' : Hand} {a : Book} {s : Session} (h : Rows b g)
    (hdues : g.dues = []) (hwho : b.who p = some (s.key, s.id))
    (ha : a.who = (b.put p none).who) (hleft : ∀ k q, Left b g k q → Left a g' k q)
    (hrows : ∀ k q, a.fwd.lookup k = some q → b.fwd.lookup k = some q)
    (hrow : a.fwd.lookup s.key = some p → Leaving a g' s.key p) : Rows a g' := by
  intro k q hq
  rcases h.free hdues (hrows k q hq) with ⟨i, hi⟩ | hold
  · by_cases hpq : q = p
    · subst hpq
      cases hwho.symm.trans hi
      exact .inr (hrow hq)
    refine .inl ⟨i, ?_⟩
    rw [ha, who_put, if_neg (fun hboth => hpq hboth.1)]
    exact hi
  · exact .inr (hleft k q hold).leaving

lemma Rows.takeOut {s : Session} {shard : ℕ} (h : Rows b g) (hdues : g.dues = [])
    (hwho : b.who p = some (s.key, s.id)) :
    Rows (b.takeOut p s shard) { g with slot := some p, dues := Hand.left p s shard } := by
  have hgone : ∀ k q, ((b.put p none).forget s.key p).fwd.lookup k = some q →
      b.fwd.lookup k = some q ∧ ¬ (k = s.key ∧ b.fwd.lookup s.key = some p) := by
    intro k q hq
    rw [Book.lookup_forget] at hq
    split at hq
    · cases hq
    next hno => exact ⟨hq, hno⟩
  rw [Book.takeOut]
  split
  · refine h.leave hdues hwho Book.who_forget (fun k q hold => ?_) (fun k q hq => (hgone k q hq).1)
      fun hq => ?_
    · obtain ⟨row, hk, hq, hmem⟩ := hold
      exact ⟨row, hk, hq, by rw [Book.stale_forget]; exact hmem⟩
    obtain ⟨hq, hno⟩ := hgone s.key p hq
    exact absurd ⟨rfl, hq⟩ hno
  next hne =>
    refine h.leave hdues hwho rfl (fun k q hold => hold) (fun k q hq => hq) fun _ => ?_
    refine .inr ⟨⟨s.key, p, s.id⟩, rfl, rfl, .inr (.inl ?_)⟩
    rw [Hand.left, if_neg hne]
    exact mem_cons_self

variable {r : Ret o}

lemma Rows.take (h : Rows b g) (hdues : g.dues = []) (hfree : g.Free o)
    (hslot : ∀ p, g.slot = some p → b.has p ∧ b.who p = none)
    (hsaw : b.Saw o r) : Rows (b.after cfg o r) (g.take o r) := by
  -- most sections leave slots, rows and what was left alone
  have hsame : ∀ {a : Book} {g' : Hand}, a.who = b.who → a.fwd = b.fwd →
      (∀ k q, Left b g k q → Left a g' k q) → Rows a g' := by
    intro a g' hwho hfwd hleft k q hq
    rcases h.free hdues (hfwd ▸ hq) with ⟨i, hi⟩ | hold
    · exact .inl ⟨i, hwho ▸ hi⟩
    · exact .inr (hleft k q hold).leaving
  cases o with
  | forward p key u port now found =>
    cases r with
    | some verdict => exact h
    | none => exact hsame rfl rfl fun k q hold => hold
  | takeStale =>
    refine hsame rfl rfl fun k q hold => ?_
    obtain ⟨row, hk, hq, hmem | hmem⟩ := hold
    · exact ⟨row, hk, hq, .inr (hsaw.symm ▸ hmem)⟩
    rw [show g.clearing = [] from hfree] at hmem
    cases hmem
  | clearRow row =>
    obtain ⟨rest, hclearing⟩ : ∃ rest, g.clearing = row :: rest := by
      have hhead : g.clearing.head? = some row := hfree
      cases hc : g.clearing with
      | nil =>
        rw [hc] at hhead
        cases hhead
      | cons row' rest =>
        rw [hc] at hhead
        cases hhead
        exact ⟨rest, rfl⟩
    -- the row that is cleared is gone, or has a session again
    have hothers : ∀ {a : Book}, a.who = b.who → a.stale = b.stale →
        (∀ k q, a.fwd.lookup k = some q → b.fwd.lookup k = some q ∧
          (k = row.key → q = row.place → ∃ i, b.who q = some (k, i))) →
        Rows a (g.take (.clearRow row) r) := by
      intro a hwho hstale hrows k q hq
      obtain ⟨hold, hagain⟩ := hrows k q hq
      rcases h.free hdues hold with ⟨i, hi⟩ | ⟨row', hk, hp, hmem | hmem⟩
      · exact .inl ⟨i, hwho ▸ hi⟩
      · exact .inr (Left.leaving ⟨row', hk, hp, .inl (hstale ▸ hmem)⟩)
      rw [hclearing] at hmem
      rcases mem_cons.mp hmem with rfl | htail
      · obtain ⟨i, hi⟩ := hagain hk.symm hp.symm
        exact .inl ⟨i, hwho ▸ hi⟩
      refine .inr (Left.leaving ⟨row', hk, hp, .inr ?_⟩)
      show row' ∈ g.clearing.tail
      rw [hclearing]
      exact htail
    show Rows (b.clear row) _
    rw [clear]
    split
    next hkept =>
      obtain ⟨⟨k, i⟩, hwho, htest⟩ := (any_eq_true _ _).mp hkept
      refine hothers rfl rfl fun k' q hq => ⟨hq, fun hk hp => ⟨i, ?_⟩⟩
      have hkey : k = row.key := by simpa using (Bool.and_eq_true_iff.mp htest).1
      rw [hp, hwho, hkey, hk]
    refine hothers who_forget stale_forget fun k q hq => ?_
    rw [lookup_forget] at hq
    split at hq
    · cases hq
    rename_i hno
    refine ⟨hq, fun hk hp => absurd ⟨hk, ?_⟩ hno⟩
    rw [← hk, ← hp]
    exact hq
  | endWaiting p id shard =>
    cases r with
    | none => exact h
    | some s => exact h.takeOut hdues hsaw.2
  | probe p shard =>
    rcases r with _ | _ | ⟨_ | s⟩
    · exact h
    · exact h
    · exact hsame rfl rfl fun k q hold => hold
    · exact h.takeOut hdues hsaw.2
  | install p s =>
    obtain ⟨-, -, hgslot⟩ := hfree
    obtain ⟨hhas, hempty⟩ := hslot p hgslot
    intro k q hq
    have hinsert : (b.fwd.insert s.key p).lookup k = some q := hq
    rcases Table.lookup_insert_cases hinsert with ⟨rfl, rfl⟩ | hold
    · refine .inl ⟨b.nextId, ?_⟩
      show (b.put q _).who q = _
      rw [who_put, if_pos ⟨rfl, hhas⟩]
    rcases h.free hdues hold with ⟨i, hi⟩ | hleft
    · refine .inl ⟨i, ?_⟩
      show (b.put p _).who q = _
      rw [who_put, if_neg, hi]
      rintro ⟨rfl, -⟩
      cases hempty.symm.trans hi
    obtain ⟨row, hk, hq, hmem⟩ := hleft
    exact .inr (Left.leaving ⟨row, hk, hq, hmem⟩)
  | sweepSlot p now =>
    cases r with
    | empty | stays => exact h
    | ended s =>
      exact h.leave hdues hsaw.2 rfl (fun k q hold => hold) (fun k q hq => hq) fun _ =>
        .inl mem_cons_self
  | popWaiting li net =>
    cases r with
    | room | full => exact h
    | waiting n id =>
      refine hsame ?_ rfl fun k q hold => hold
      funext q
      show ((b.onSheet li fun s => s.pop net).seat q).join = _
      rw [seat_onSheet fun s => s.seats_pop net, who]
  | lockShard key | unlockShard shard | unlockSlot p => exact hsame rfl rfl fun k q hold => hold
  | forget key p | pushStale row | heldDown li | prefixDown li net | heldUp li
  | prefixUp li net n id => exact hfree.elim
  | _ => exact h

/-! ## Calls one after another -/

structure InOrder (cfg : Config) (b : Book) (g : Hand) : Prop where
  owned : b.Owned
  holds : g.Holds b
  rows : Rows b g
  balanced : Balanced b g
  fit : b.Fit cfg.share
  slot : ∀ p, g.slot = some p → b.has p = true ∧ b.who p = none
  underflow : b.underflow = false

lemma slot_change {c : Book} (hc : b.Change o c) (ho : ∀ p s, o ≠ .install p s)
    (h : b.has p ∧ b.who p = none) : c.has p ∧ c.who p = none := by
  refine ⟨hc.has.trans h.1, eq_none_iff_forall_ne_some.mpr fun w hw => ?_⟩
  rcases hc.who hw with hold | ⟨s, hs, -⟩
  · cases h.2.symm.trans hold
  · exact ho p s hs

lemma InOrder.take (h : InOrder cfg b g) (hdues : g.dues = []) (hfree : g.Free o)
    (hsaw : b.Saw o r) : InOrder cfg (b.after cfg o r) (g.take o r) := by
  have hok : Hand.Ok o g := by rw [Hand.Ok, hdues]; exact hfree
  have hc := change_after cfg hsaw
  refine ⟨h.owned.after cfg h.holds hok hsaw, h.holds.take cfg h.owned hfree hsaw,
    h.rows.take hdues hfree h.slot hsaw, h.balanced.take hdues hfree h.slot hsaw,
      h.fit.after r, ?_, ?_⟩
  · intro p hp
    have hkept : (∀ p s, o ≠ .install p s) → g.slot = some p →
        (b.after cfg o r).has p ∧ (b.after cfg o r).who p = none :=
      fun ho hslot => slot_change hc ho (h.slot p hslot)
    cases o with
    | forward p' key u port now found =>
      cases r with
      | none | some verdict => exact hkept (fun _ _ ho => by cases ho) hp
    | endWaiting p' id shard =>
      cases r with
      | none => exact hkept (fun _ _ ho => by cases ho) hp
      | some s =>
        cases hp
        exact ⟨hc.has.trans hsaw.1, who_takeOut hsaw.1⟩
    | probe p' shard =>
      rcases r with _ | _ | ⟨_ | s⟩
      · exact hkept (fun _ _ ho => by cases ho) hp
      · exact hkept (fun _ _ ho => by cases ho) hp
      · cases hp
        exact hsaw
      cases hp
      exact ⟨hc.has.trans hsaw.1, who_takeOut hsaw.1⟩
    | install p' s | unlockSlot p' => cases hp
    | sweepSlot p' now => cases r <;> exact hkept (fun _ _ ho => by cases ho) hp
    | _ => exact hkept (fun _ _ ho => by cases ho) hp
  · rw [underflow_take hfree, h.underflow]

lemma InOrder.step (h : InOrder cfg b g) (hok : Hand.Ok o g) (hsaw : b.Saw o r) :
    InOrder cfg (b.after cfg o r) (Hand.next o r g) := by
  cases hdues : g.dues with
  | nil =>
    rw [Hand.Ok, hdues] at hok
    rw [Hand.next_of_free hdues]
    exact h.take hdues hok hsaw
  | cons d ds =>
    have hholds := h.holds.after cfg h.owned hok hsaw
    have howned := h.owned.after cfg h.holds hok hsaw
    rw [Hand.next_of_owed hdues] at hholds ⊢
    rw [Hand.Ok, hdues] at hok
    subst hok
    refine ⟨howned, hholds, h.rows.pay hdues r, h.balanced.pay hdues r, h.fit.after r,
      fun p hp => ?_, h.balanced.underflow_pay hdues r h.underflow⟩
    exact slot_change (change_after cfg hsaw) (fun _ _ ho => by cases d <;> cases ho) (h.slot p hp)

end

lemma inOrder_initial (cfg : Config) : InOrder cfg (initial cfg).book Hand.empty := by
  have hsheet : ∀ (li : ℕ) (s : Sheet), (initial cfg).book.sheets[li]? = some s →
      s = ⟨List.replicate cfg.slots none, 0, ∅⟩ := by
    intro li s hs
    rw [Engine.getElem?_sheets] at hs
    obtain ⟨l, hl, rfl⟩ := map_eq_some_iff.mp hs
    rw [initial, getElem?_replicate] at hl
    split at hl
    · cases hl
      simp [Local.sheet]
    · cases hl
  refine ⟨owned_initial cfg, Hand.holds_empty _, fun k p hrow => ?_, ?_, fun li s hs => ?_,
    fun p hp => (by cases hp), rfl⟩
  · cases hrow
  · refine Balanced.of_equal (fun c => ?_) fun c => ⟨rfl, rfl⟩
    rw [value, taken]
    cases hs : (initial cfg).book.sheets[c.li]? with
    | none => rfl
    | some s =>
      rw [hsheet c.li s hs]
      have hempty : (List.replicate cfg.slots (none : Option (FwdKey × ℕ))).countP
          (fun x => x.any fun w => c.covers w.1) = 0 := by
        rw [countP_replicate]
        rfl
      rw [elim_some, elim_some, hempty]
      cases c <;> rfl
  rw [hsheet li s hs]
  intro net ports hports
  cases hports

inductive Reached (cfg : Config) : Engine → Prop where
  | initial : Reached cfg (Engine.initial cfg)
  | call {e e' : Engine} (c : Call) : Reached cfg e →
      (program cfg c).Runs (system cfg).toMachine e e' () → Reached cfg e'

structure Consistent (cfg : Config) (e : Engine) : Prop where
  /-- The slots taken, `held` and the sum over the prefixes. -/
  counts : ∀ l ∈ e.locals, l.slots.countP Option.isSome = l.held ∧
    l.held = l.prefixes.total PrefixPorts.held
  prefixes : ∀ l ∈ e.locals, ∀ net ports, l.prefixes.lookup net = some ports →
    1 ≤ ports.held ∧ ports.waiting.length ≤ min cfg.share (2 * ports.held)
  rows : ∀ k p, e.fwd.lookup k = some p →
    (∃ s, e.slot p = some s ∧ s.key = k) ∨ ∃ row ∈ e.stale, row.key = k ∧ row.place = p
  own : ∀ p s, e.slot p = some s → e.fwd.lookup s.key = some p
  one : ∀ p q s t, e.slot p = some s → e.slot q = some t → s.key = t.key → p = q
  no_underflow : e.underflow = false

lemma reached_inOrder {cfg : Config} {e : Engine} (h : Reached cfg e) :
    InOrder cfg e.book Hand.empty := by
  induction h with
  | initial => exact inOrder_initial cfg
  | call c _ hruns ih =>
    have hstep : ∀ (o : Op) (env : Env) (e : Engine) (g : Hand), Hand.Ok o g →
        InOrder cfg e.book g →
        InOrder cfg ((system cfg).exec o env e).1.book
          (Hand.next o ((system cfg).exec o env e).2 g) := by
      intro o env e g hok hI
      obtain ⟨hbook, hsaw⟩ := book_exec cfg env e o
      show InOrder cfg (exec cfg env e o).1.book _
      rw [hbook]
      exact hI.step hok hsaw
    obtain ⟨g, hI, rfl⟩ := (safe_program cfg c).runs hstep hruns ih
    exact hI

lemma taken_held {e : Engine} {li : ℕ} {l : Local} (hl : e.locals[li]? = some l) (c : Counter)
    (hli : c.li = li) (hall : ∀ k, c.covers k) :
    c.taken e.book = l.slots.countP Option.isSome := by
  rw [taken, Engine.getElem?_sheets, hli, hl]
  show (l.slots.map _).countP _ = _
  rw [countP_map]
  refine countP_congr fun x _ => ?_
  cases x <;> simp [hall]

/-- **The session tables stay consistent**, after every sequence of calls. -/
theorem tables_consistent (cfg : Config) {e : Engine} (h : Reached cfg e) : Consistent cfg e := by
  have hI := reached_inOrder h
  have hown : ∀ p s, e.slot p = some s → e.fwd.lookup s.key = some p := fun p s hs =>
    hI.owned.own p s.key s.id (by rw [who_book, hs]; rfl)
  have hequal := hI.balanced.equal_of_free rfl
  refine ⟨fun l hl => ?_, fun l hl => ?_, fun k p hrow => ?_, hown, fun p q s t hs ht hkey => ?_,
    hI.underflow⟩
  · obtain ⟨li, hli⟩ := mem_iff_getElem?.mp hl
    have hheld := hequal (.held li)
    have htotal := hequal (.prefixes li)
    rw [taken_held hli (.held li) rfl fun k => rfl, value, Engine.getElem?_sheets,
      show (held li).li = li from rfl, hli] at hheld
    rw [taken_held hli (.prefixes li) rfl fun k => rfl, value, Engine.getElem?_sheets,
      show (prefixes li).li = li from rfl, hli] at htotal
    exact ⟨hheld.symm, hheld.trans htotal.symm⟩
  · obtain ⟨li, hli⟩ := mem_iff_getElem?.mp hl
    exact hI.fit li l.sheet (by rw [Engine.getElem?_sheets, hli]; rfl)
  · rcases hI.rows.free rfl hrow with ⟨i, hi⟩ | ⟨row, hk, hp, hmem | hmem⟩
    · rw [who_book] at hi
      obtain ⟨s, hs, heq⟩ := map_eq_some_iff.mp hi
      exact .inl ⟨s, hs, (Prod.mk.inj heq).1⟩
    · exact .inr ⟨row, hmem, hk, hp⟩
    · cases hmem
  have hp := hown p s hs
  rw [hkey, hown q t ht] at hp
  exact (Option.some.inj hp).symm

theorem first_session_consistent : ∃ e, Reached config e ∧ (∃ s, e.slot (0, 0) = some s) ∧
    Consistent config e := by
  have hreached : Reached config
      ((program config (client 0)).run (system config).toMachine env
        (initial config)).1 :=
    .call (client 0) .initial (Prog.runs_run env _ _)
  refine ⟨_, hreached, ?_, tables_consistent config hreached⟩
  exact isSome_iff_exists.mp (by decide +kernel)

end Rproxy.Dpdk
