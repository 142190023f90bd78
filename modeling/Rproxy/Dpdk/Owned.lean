import Rproxy.Dpdk.Hands

/-!
# Sessions and their rows

A session has its own row: the row of its client points to its slot (`Book.Owned`).
-/

namespace Rproxy.Dpdk
open List Option
namespace Sheet

lemma seats_pop (s : Sheet) (net : UInt32) : (s.pop net).seats = s.seats := by
  rw [pop]
  split <;> rfl

lemma seats_down (s : Sheet) (net : UInt32) : (s.down net).seats = s.seats := by
  rw [down]
  split <;> rfl

end Sheet

namespace Book
variable {b : Book} {p q : Place} {k key : FwdKey} {i : ℕ} {o : Op} {r : Ret o}

/-! ## What a section changes in the book -/

lemma who_put_none {w : FwdKey × ℕ} (h : (b.put p none).who q = some w) : b.who q = some w := by
  rw [who_put] at h
  split at h
  · cases h
  · exact h

lemma seat_forget : (b.forget key p).seat = b.seat := by
  rw [forget]
  split <;> rfl

lemma who_forget : (b.forget key p).who = b.who := by
  funext q
  rw [who, who, seat_forget]

lemma who_congr {c : Book} (h : c.seat = b.seat) : c.who = b.who := by
  funext q
  rw [who, who, h]

lemma nextId_forget : (b.forget key p).nextId = b.nextId := by
  rw [forget]
  split <;> rfl

lemma stale_forget : (b.forget key p).stale = b.stale := by
  rw [forget]
  split <;> rfl

lemma lookup_forget : (b.forget key p).fwd.lookup k =
    if k = key ∧ b.fwd.lookup key = some p then none else b.fwd.lookup k := by
  rw [forget]
  by_cases hrow : b.fwd.lookup key = some p
  · rw [if_pos hrow, Table.lookup_erase_eq]
    simp [hrow]
  · rw [if_neg hrow, if_neg (fun h => hrow h.2)]

inductive Change (b : Book) (o : Op) : Book → Prop where
  | same (c : Book) : c.seat = b.seat → c.fwd = b.fwd → c.nextId = b.nextId →
      (∀ row ∈ c.stale, row ∈ b.stale ∨ o = .pushStale row) → Change b o c
  | forget (key : FwdKey) (p : Place) : o = .forget key p → Change b o (b.forget key p)
  | clear (row : StaleRow) : o = .clearRow row →
      (∀ k i, b.who row.place = some (k, i) → k = row.key → i = row.id) →
      Change b o (b.forget row.key row.place)
  | vacate (p : Place) : Change b o (b.put p none)
  | takeOut (p : Place) (key : FwdKey) : b.has p = true → Change b o ((b.put p none).forget key p)
  | install (p : Place) (s : Session) : o = .install p s → Change b o (b.install p s.key)

lemma change_after (cfg : Config) (hsaw : b.Saw o r) : b.Change o (b.after cfg o r) := by
  have hsheet : ∀ {a : Book} {li : ℕ} {f : Sheet → Sheet}, (∀ s, (f s).seats = s.seats) →
      a.sheets = b.sheets → a.fwd = b.fwd → a.nextId = b.nextId → a.stale = b.stale →
      b.Change o (a.onSheet li f) := by
    intro a li f hf hsheets hfwd hid hstale
    refine .same _ ?_ hfwd hid fun row h => .inl (hstale ▸ h)
    funext p
    rw [seat_onSheet hf, seat, seat, hsheets]
  have htake : ∀ {p s shard}, b.has p → b.Change o (b.takeOut p s shard) := by
    intro p s shard hhas
    rw [Book.takeOut]
    split
    · exact .takeOut p s.key hhas
    · exact .vacate p
  cases o with
  | forget key p => exact .forget key p rfl
  | clearRow row =>
    rw [after, Book.clear]
    split
    · exact .same _ rfl rfl rfl fun _ h => .inl h
    rename_i hkept
    refine .clear row rfl fun k i hwho hk => ?_
    by_contra hne
    refine hkept ?_
    rw [hwho]
    simp [hk, hne]
  | endWaiting p id shard =>
    cases r with
    | none => exact .same _ rfl rfl rfl fun _ h => .inl h
    | some s => exact htake hsaw.1
  | probe p shard =>
    rcases r with _ | _ | ⟨_ | s⟩
    · exact .same _ rfl rfl rfl fun _ h => .inl h
    · exact .same _ rfl rfl rfl fun _ h => .inl h
    · exact .same _ rfl rfl rfl fun _ h => .inl h
    · exact htake hsaw.1
  | takeStale => exact .same _ rfl rfl rfl fun _ h => by cases h
  | pushStale row =>
    refine .same _ rfl rfl rfl fun row' h => ?_
    rcases mem_append.mp h with h | h
    · exact .inl h
    cases mem_singleton.mp h
    exact .inr rfl
  | popWaiting li net =>
    cases r with
    | room | full => exact .same _ rfl rfl rfl fun _ h => .inl h
    | waiting n id => exact hsheet (fun s => s.seats_pop net) rfl rfl rfl rfl
  | heldDown li => exact hsheet (a := b.lower _) (fun s => rfl) rfl rfl rfl rfl
  | prefixDown li net => exact hsheet (a := b.lower _) (fun s => s.seats_down net) rfl rfl rfl rfl
  | heldUp li | prefixUp li net n id => exact hsheet (fun s => rfl) rfl rfl rfl rfl
  | install p s => exact .install p s rfl
  | sweepSlot p now =>
    cases r with
    | empty | stays => exact .same _ rfl rfl rfl fun _ h => .inl h
    | ended s => exact .vacate p
  | _ => exact .same _ rfl rfl rfl fun _ h => .inl h

variable {c : Book}

lemma Change.who (hc : b.Change o c) (h : c.who q = some (k, i)) : b.who q = some (k, i) ∨
      ∃ s, o = .install q s ∧ k = s.key ∧ i = b.nextId ∧ b.nextId < c.nextId := by
  cases hc with
  | same c hseat => exact .inl (who_congr hseat ▸ h)
  | forget key p | clear row => exact .inl (who_forget ▸ h)
  | vacate p => exact .inl (who_put_none h)
  | takeOut p key =>
    rw [who_forget] at h
    exact .inl (who_put_none h)
  | install p s ho =>
    have hput : (b.put p (some (s.key, b.nextId))).who q = some (k, i) := h
    rw [who_put] at hput
    split at hput
    next hq =>
      cases hput
      exact .inr ⟨s, by rw [ho, hq.1], rfl, rfl, Nat.lt_succ_self _⟩
    · exact .inl hput

lemma Change.has (hc : b.Change o c) : c.has q = b.has q := by
  have hforget : ∀ {a : Book} {key p}, (a.forget key p).has q = a.has q := by
    intro a key p
    rw [Book.has, seat_forget, Book.has]
  cases hc with
  | same c hseat => rw [Book.has, hseat, Book.has]
  | forget key p | clear row => exact hforget
  | vacate p => exact has_put none
  | takeOut p key => exact hforget.trans (has_put none)
  | install p s => exact has_put _

lemma Change.lookup (hc : b.Change o c) (h : c.fwd.lookup k = some q) :
    b.fwd.lookup k = some q ∨ ∃ s, o = .install q s ∧ k = s.key := by
  have hforget : ∀ {a : Book} {key p}, a.fwd = b.fwd → (a.forget key p).fwd.lookup k = some q →
      b.fwd.lookup k = some q := by
    intro a key p ha h
    rw [lookup_forget] at h
    split at h
    · cases h
    · exact ha ▸ h
  cases hc with
  | same c _ hfwd => exact .inl (hfwd ▸ h)
  | forget key p | clear row => exact .inl (hforget rfl h)
  | vacate p => exact .inl h
  | takeOut p key => exact .inl (hforget (a := b.put p none) rfl h)
  | install p s ho =>
    have hinsert : (b.fwd.insert s.key p).lookup k = some q := h
    rcases Table.lookup_insert_cases hinsert with ⟨rfl, rfl⟩ | h
    · exact .inr ⟨s, ho, rfl⟩
    · exact .inl h

lemma Change.nextId_le (hc : b.Change o c) : b.nextId ≤ c.nextId := by
  cases hc with
  | same c _ _ hid => exact hid.ge
  | forget key p | clear row => exact nextId_forget.ge
  | vacate p => exact le_rfl
  | takeOut p key => exact (nextId_forget (b := b.put p none)).ge
  | install p s => exact Nat.le_succ _

lemma Change.stale (hc : b.Change o c) {row : StaleRow} (h : row ∈ c.stale) :
    row ∈ b.stale ∨ o = .pushStale row := by
  cases hc with
  | same c _ _ _ hstale => exact hstale row h
  | forget key p | clear row => exact .inl (stale_forget ▸ h)
  | vacate p => exact .inl h
  | takeOut p key => exact .inl ((stale_forget (b := b.put p none)) ▸ h)
  | install p s => exact .inl h

/-! ## The invariant of the book -/

def Dead (b : Book) (row : StaleRow) : Prop :=
  row.id < b.nextId ∧ ∀ k i, b.who row.place = some (k, i) → i ≠ row.id

structure Owned (b : Book) : Prop where
  own : ∀ p k i, b.who p = some (k, i) → b.fwd.lookup k = some p
  ids : ∀ p k i, b.who p = some (k, i) → i < b.nextId
  stale : ∀ row ∈ b.stale, b.Dead row

lemma Dead.change {row : StaleRow} (h : b.Dead row) (hc : b.Change o c) : c.Dead row := by
  refine ⟨h.1.trans_le hc.nextId_le, fun k i hwho => ?_⟩
  rcases hc.who hwho with hwho | ⟨-, -, -, rfl, -⟩
  · exact h.2 k i hwho
  · exact h.1.ne'

end Book

variable (cfg : Config)

lemma Engine.slot_initial (p : Place) : (Engine.initial cfg).slot p = none := by
  rw [Engine.slot, Engine.initial, getElem?_replicate]
  split
  · rw [bind_some, getElem?_replicate]
    split <;> rfl
  · rfl

lemma Book.owned_initial : (Engine.initial cfg).book.Owned := by
  have hwho : ∀ p, (Engine.initial cfg).book.who p = none := by
    intro p
    rw [Engine.who_book, Engine.slot_initial]
    rfl
  refine ⟨fun p k i h => ?_, fun p k i h => ?_, by simp [Engine.book, Engine.initial]⟩
  · cases (hwho p).symm.trans h
  · cases (hwho p).symm.trans h

structure Hand.Holds (g : Hand) (b : Book) : Prop where
  fresh : g.fresh = true → ∃ k, g.shard = some k ∧ b.fwd.lookup k = none
  row : ∀ k p, Due.row k p ∈ g.dues → ∀ i, b.who p ≠ some (k, i)
  stale : ∀ row, Due.stale row ∈ g.dues → b.Dead row
  clearing : ∀ row ∈ g.clearing, b.Dead row
  first : ∀ k p, Due.row k p ∉ g.dues.tail

variable {g : Hand} {b c : Book} {o : Op} {r : Ret o}

lemma Hand.holds_empty (b : Book) : Hand.empty.Holds b :=
  ⟨fun h => (Bool.false_ne_true h).elim, by simp [empty], by simp [empty], by simp [empty],
    by simp [empty]⟩

open Book

lemma Book.Owned.own_change (h : b.Owned) (hg : g.Holds b) (hok : Hand.Ok o g)
    (hc : b.Change o c) : ∀ p k i, c.who p = some (k, i) → c.fwd.lookup k = some p := by
  intro p k i hwho
  cases hc with
  | same c hsame hfwd =>
    rw [hfwd]
    exact h.own p k i (who_congr hsame ▸ hwho)
  | forget key q ho =>
    subst ho
    obtain ⟨ds, hdues⟩ := Hand.Ok.owed (d := .row key q) hok
    rw [who_forget] at hwho
    have hrow := h.own p k i hwho
    rw [lookup_forget, if_neg, hrow]
    rintro ⟨rfl, hq⟩
    cases hrow.symm.trans hq
    exact hg.row k p (by simp [hdues]) i hwho
  | clear row ho hkept =>
    subst ho
    have hmem := (hok.free fun d hd => by cases d <;> cases hd).2
    rw [who_forget] at hwho
    have hrow := h.own p k i hwho
    rw [lookup_forget, if_neg, hrow]
    rintro ⟨rfl, hq⟩
    cases hrow.symm.trans hq
    have hdead := hg.clearing row (mem_of_mem_head? (mem_def.mpr hmem))
    exact hdead.2 row.key i hwho (hkept row.key i hwho rfl)
  | vacate q => exact h.own p k i (who_put_none hwho)
  | takeOut q key hhas =>
    rw [who_forget] at hwho
    have hrow := h.own p k i (who_put_none hwho)
    rw [lookup_forget, if_neg]
    · exact hrow
    rintro ⟨rfl, hq⟩
    cases hrow.symm.trans hq
    rw [who_put, if_pos ⟨rfl, hhas⟩] at hwho
    cases hwho
  | install q s ho =>
    subst ho
    obtain ⟨-, hshard, hfresh, -⟩ := hok.free fun d hd => by cases d <;> cases hd
    show (b.fwd.insert s.key q).lookup k = some p
    rw [Table.lookup_insert_eq]
    rcases (Change.install (b := b) q s rfl).who hwho with hold | ⟨s', ho, rfl, -⟩
    · -- the row of another session: the new one's key had none
      have hrow := h.own p k i hold
      rw [if_neg, hrow]
      rintro rfl
      obtain ⟨k, hk, hnone⟩ := hg.fresh hfresh
      cases hshard.symm.trans hk
      cases hnone.symm.trans hrow
    · cases ho
      rw [if_pos rfl]

lemma Book.Owned.after (h : b.Owned) (hg : g.Holds b) (hok : Hand.Ok o g) (hsaw : b.Saw o r) :
    (b.after cfg o r).Owned := by
  have hc := change_after cfg hsaw
  refine ⟨h.own_change hg hok hc, fun p k i hwho => ?_, fun row hrow => ?_⟩
  · rcases hc.who hwho with hold | ⟨-, -, -, rfl, hlt⟩
    · exact (h.ids p k i hold).trans_le hc.nextId_le
    · exact hlt
  rcases hc.stale hrow with hold | rfl
  · exact (h.stale row hold).change hc
  obtain ⟨ds, hdues⟩ := Hand.Ok.owed (d := .stale row) hok
  exact (hg.stale row (by simp [hdues])).change hc

lemma Hand.Holds.keeps (h : g.Holds b) (hc : b.Change o c)
    (hnew : ∀ p s, o = .install p s → g.shard ≠ some s.key ∧ Due.row s.key p ∉ g.dues) :
    g.Holds c := by
  refine ⟨fun hfresh => ?_, fun k p hdue i hwho => ?_, fun row hrow => (h.stale row hrow).change hc,
    fun row hrow => (h.clearing row hrow).change hc, h.first⟩
  · obtain ⟨k, hk, hnone⟩ := h.fresh hfresh
    refine ⟨k, hk, eq_none_iff_forall_ne_some.mpr fun p hrow => ?_⟩
    rcases hc.lookup hrow with hold | ⟨s, ho, rfl⟩
    · cases hnone.symm.trans hold
    · exact (hnew p s ho).1 hk
  rcases hc.who hwho with hold | ⟨s, ho, rfl, -⟩
  · exact h.row k p hdue i hold
  · exact (hnew p s ho).2 hdue

lemma Hand.Holds.left {p : Place} {s : Session} {shard : ℕ} (h : g.Holds c)
    (hid : s.id < c.nextId) (hwho : c.who p = none) :
    { g with slot := some p, dues := left p s shard }.Holds c := by
  have hrows : ∀ k q, Due.row k q ∉ Hand.left p s shard := by
    intro k q hdue
    rw [Hand.left] at hdue
    split at hdue <;> simp [counts] at hdue
  refine ⟨h.fresh, fun k q hdue => absurd hdue (hrows k q), fun row hrow => ?_, h.clearing,
    fun k q hdue => hrows k q (mem_of_mem_tail hdue)⟩
  rw [Hand.left] at hrow
  split at hrow
  · simp [counts] at hrow
  have hrow : row = ⟨s.key, p, s.id⟩ := by simpa [counts] using hrow
  subst hrow
  refine ⟨hid, fun k i hsome => ?_⟩
  cases hwho.symm.trans hsome

lemma who_takeOut {p : Place} {s : Session} {shard : ℕ} (hhas : b.has p) :
    (b.takeOut p s shard).who p = none := by
  have hput : (b.put p none).who p = none := by rw [who_put, if_pos ⟨rfl, hhas⟩]
  rw [Book.takeOut]
  split
  · rw [who_forget]
    exact hput
  · exact hput

lemma Hand.Holds.take (hb : b.Owned) (h : g.Holds b) (hfree : g.Free o) (hsaw : b.Saw o r) :
    (g.take o r).Holds (b.after cfg o r) := by
  have hc := change_after cfg hsaw
  have hsame : (∀ p s, o ≠ .install p s) → g.Holds (b.after cfg o r) := fun hno =>
    h.keeps hc fun p s ho => absurd ho (hno p s)
  cases o with
  | forward p key u port now found =>
    cases r with
    | some verdict => exact h
    | none =>
      refine ⟨h.fresh, fun k q hdue i hwho => ?_, by simp [Hand.take],
        h.clearing, by simp [Hand.take]⟩
      cases mem_singleton.mp hdue
      exact hsaw _ hwho rfl
  | takeStale =>
    refine ⟨h.fresh, h.row, h.stale, fun row hrow => ?_, h.first⟩
    rw [show r = b.stale from hsaw] at hrow
    exact hb.stale row hrow
  | clearRow row =>
    have hg := hsame fun _ _ ho => by cases ho
    exact ⟨hg.fresh, hg.row, hg.stale, fun row' hrow => hg.clearing row' (mem_of_mem_tail hrow),
      hg.first⟩
  | lockShard key =>
    refine ⟨fun hfresh => ⟨key, rfl, ?_⟩, h.row, h.stale, h.clearing, h.first⟩
    rw [show r = b.fwd.lookup key from hsaw] at hfresh
    exact isNone_iff_eq_none.mp hfresh
  | unlockShard shard => exact ⟨fun hfresh => (by cases hfresh), h.row, h.stale, h.clearing,
    h.first⟩
  | endWaiting p id shard =>
    cases r with
    | none => exact h
    | some s =>
      refine (hsame fun _ _ ho => by cases ho).left ?_ (who_takeOut hsaw.1)
      exact (hb.ids p _ _ hsaw.2).trans_le hc.nextId_le
  | probe p shard =>
    rcases r with _ | _ | ⟨_ | s⟩
    · exact h
    · exact h
    · exact ⟨h.fresh, by simp [Hand.take], by simp [Hand.take], h.clearing, by simp [Hand.take]⟩
    refine (hsame fun _ _ ho => by cases ho).left ?_ (who_takeOut hsaw.1)
    exact (hb.ids p _ _ hsaw.2).trans_le hc.nextId_le
  | install p s =>
    exact ⟨fun hfresh => (by cases hfresh), by simp [Hand.take], by simp [Hand.take],
      fun row hrow => (h.clearing row hrow).change hc, by simp [Hand.take]⟩
  | unlockSlot p => exact ⟨h.fresh, h.row, h.stale, h.clearing, h.first⟩
  | sweepSlot p now =>
    cases r with
    | empty | stays => exact h
    | ended s =>
      have hg := hsame fun _ _ ho => by cases ho
      refine ⟨hg.fresh, fun k q hdue i hwho => ?_, by simp [Hand.take, counts], hg.clearing,
        by simp [Hand.take, counts]⟩
      have hrow : k = s.key ∧ q = p := by simpa [Hand.take, counts] using hdue
      rw [hrow.2] at hwho
      have hnone : (b.put p none).who p = none := by rw [who_put, if_pos ⟨rfl, hsaw.1⟩]
      cases hnone.symm.trans hwho
  | forget key p | pushStale row => exact hfree.elim
  | _ => exact hsame fun _ _ ho => by cases ho

lemma Hand.Holds.after (hb : b.Owned) (h : g.Holds b) (hok : Ok o g) (hsaw : b.Saw o r) :
    (next o r g).Holds (b.after cfg o r) := by
  cases hdues : g.dues with
  | nil =>
    rw [next_of_free hdues]
    rw [Ok, hdues] at hok
    exact h.take cfg hb hok hsaw
  | cons d ds =>
    rw [next_of_owed hdues]
    rw [Ok, hdues] at hok
    have hg := h.keeps (change_after cfg hsaw) fun p s ho => by
      rw [ho] at hok
      cases d <;> cases hok
    have hsub : ∀ d' ∈ ds, d' ∈ g.dues := fun d' hd' => hdues ▸ mem_cons_of_mem d hd'
    exact ⟨hg.fresh, fun k p hdue => hg.row k p (hsub _ hdue), fun row hrow =>
      hg.stale row (hsub _ hrow), hg.clearing, fun k p hdue =>
      hg.first k p (by rw [hdues]; exact mem_of_mem_tail hdue)⟩

end Rproxy.Dpdk
