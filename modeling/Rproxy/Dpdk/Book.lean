import Rproxy.Dpdk.Calls

/-!
# The book of the sessions

The part of an engine's state that decides who sits where and what is counted: the client of each
slot, the counters of each source address, the rows, those left to be cleared, the next number and
the held shards.
-/

namespace Rproxy.Dpdk
open List Option

structure Sheet where
  seats : List (Option (FwdKey × ℕ))
  held : ℕ
  prefixes : Table UInt32 PrefixPorts

namespace Sheet
variable (s : Sheet) (net : UInt32)

def pop : Sheet :=
  match s.prefixes.lookup net with
  | none => s
  | some ports =>
    { s with prefixes := s.prefixes.insert net { ports with waiting := ports.waiting.tail } }

def down : Sheet :=
  match s.prefixes.lookup net with
  | none => s
  | some ports =>
    { s with
      prefixes :=
        if ports.held - 1 = 0 then s.prefixes.erase net
        else s.prefixes.insert net ⟨ports.held - 1,
          ports.waiting.drop (ports.waiting.length - 2 * (ports.held - 1))⟩ }

def up (share : ℕ) (net : UInt32) (n id : ℕ) : Sheet :=
  let ports := (s.prefixes.lookup net).getD ⟨0, []⟩
  { s with
    prefixes := s.prefixes.insert net ⟨ports.held + 1,
      ports.waiting.drop (ports.waiting.length + 1 - min share (2 * (ports.held + 1))) ++
        [(n, id)]⟩ }

def ofNet : ℕ := (s.prefixes.lookup net).elim 0 PrefixPorts.held

end Sheet

structure Book where
  sheets : List Sheet
  fwd : Table FwdKey Place
  stale : List StaleRow
  nextId : ℕ
  shards : List ℕ
  underflow : Bool

namespace Book
variable (b : Book) (p : Place)

def seat : Option (Option (FwdKey × ℕ)) :=
  (b.sheets[p.1]?).bind fun s => s.seats[p.2]?

def has : Bool := (b.seat p).isSome

def who : Option (FwdKey × ℕ) := (b.seat p).join

def onSheet (li : ℕ) (f : Sheet → Sheet) : Book :=
  { b with sheets := b.sheets.modify li f }

def put (x : Option (FwdKey × ℕ)) : Book :=
  b.onSheet p.1 fun s => { s with seats := s.seats.set p.2 x }

def lower (n : Option ℕ) : Book := { b with underflow := b.underflow || n = some 0 }

def forget (key : FwdKey) (p : Place) : Book :=
  if b.fwd.lookup key = some p then { b with fwd := b.fwd.erase key } else b

def clear (r : StaleRow) : Book :=
  if (b.who r.place).any fun w => w.1 = r.key && w.2 ≠ r.id then b else b.forget r.key r.place

def takeOut (s : Session) (shard : ℕ) : Book :=
  if shard = shardOf s.key then (b.put p none).forget s.key p else b.put p none

def install (key : FwdKey) : Book :=
  { b.put p (some (key, b.nextId)) with nextId := b.nextId + 1, fwd := b.fwd.insert key p }

def after (cfg : Config) (b : Book) : (o : Op) → Ret o → Book
  | .forget key p, _ => b.forget key p
  | .takeStale, _ => { b with stale := [] }
  | .clearRow r, _ => b.clear r
  | .lockShard key, _ => { b with shards := shardOf key :: b.shards }
  | .unlockShard shard, _ => { b with shards := b.shards.erase shard }
  | .popWaiting li net, .waiting _ _ => b.onSheet li fun s => s.pop net
  | .pushStale r, _ => { b with stale := b.stale ++ [r] }
  | .endWaiting p _ shard, some s => b.takeOut p s shard
  | .heldDown li, _ =>
    (b.lower ((b.sheets[li]?).map Sheet.held)).onSheet li fun s => { s with held := s.held - 1 }
  | .prefixDown li net, _ =>
    (b.lower ((b.sheets[li]?).bind fun s =>
      (s.prefixes.lookup net).map PrefixPorts.held)).onSheet li
      fun s => s.down net
  | .probe p shard, .free (some s) => b.takeOut p s shard
  | .install p s, _ => b.install p s.key
  | .heldUp li, _ => b.onSheet li fun s => { s with held := s.held + 1 }
  | .prefixUp li net n id, _ => b.onSheet li fun s => s.up cfg.share net n id
  | .sweepSlot p _, .ended _ => b.put p none
  | _, _ => b

def Saw : (o : Op) → Ret o → Prop
  | .forward p key _ _ _ _, none => ∀ w, b.who p = some w → w.1 ≠ key
  | .takeStale, rows => rows = b.stale
  | .lockShard key, row => row = b.fwd.lookup key
  | .endWaiting p _ _, some s => b.has p = true ∧ b.who p = some (s.key, s.id)
  | .probe p _, .free none => b.has p = true ∧ b.who p = none
  | .probe p _, .free (some s) => b.has p = true ∧ b.who p = some (s.key, s.id)
  | .install _ _, id => id = b.nextId
  | .sweepSlot p _, .ended s => b.has p = true ∧ b.who p = some (s.key, s.id)
  | _, _ => True

/-! ## Slots -/

variable {b : Book} {p q : Place}

lemma lower_none (b : Book) : b.lower none = b := by
  simp [lower]

variable {f : Sheet → Sheet}

lemma onSheet_absent {li : ℕ} (h : b.sheets[li]? = none) : b.onSheet li f = b := by
  rw [onSheet, modify_eq_self (getElem?_eq_none_iff.mp h)]

lemma getElem?_onSheet (b : Book) (li lj : ℕ) (f : Sheet → Sheet) :
    (b.onSheet li f).sheets[lj]? = if li = lj then (b.sheets[lj]?).map f else b.sheets[lj]? := by
  rw [onSheet, getElem?_modify]
  split
  · rfl
  · cases b.sheets[lj]? <;> rfl

lemma seat_onSheet {li : ℕ} (hf : ∀ s, (f s).seats = s.seats) (p : Place) :
    (b.onSheet li f).seat p = b.seat p := by
  rw [seat, seat, getElem?_onSheet]
  split
  · cases b.sheets[p.1]? with
    | none => rfl
    | some s =>
      show (f s).seats[p.2]? = s.seats[p.2]?
      rw [hf]
  · rfl

lemma seat_put (b : Book) (p q : Place) (x : Option (FwdKey × ℕ)) :
    (b.put p x).seat q = if q = p ∧ b.has p = true then some x else b.seat q := by
  obtain ⟨li, n⟩ := p
  obtain ⟨lj, m⟩ := q
  rw [seat, seat, put, getElem?_onSheet]
  by_cases hli : li = lj
  · subst hli
    rw [if_pos rfl]
    cases hs : b.sheets[li]? with
    | none => simp [has, seat, hs]
    | some s =>
      have hhas : b.has (li, n) ↔ n < s.seats.length := by simp [has, seat, hs]
      simp only [map_some, bind_some, getElem?_set, hhas, Prod.mk.injEq, true_and]
      by_cases hn : n = m
      · subst hn
        by_cases hlt : n < s.seats.length <;> simp [hlt]
      · simp [hn, Ne.symm hn]
  have hne : ¬ ((lj, m) = (li, n) ∧ b.has (li, n)) := by
    rintro ⟨heq, -⟩
    exact hli (Prod.mk.inj heq).1.symm
  rw [if_neg hli, if_neg hne]

variable (x : Option (FwdKey × ℕ))

lemma who_put : (b.put p x).who q = if q = p ∧ b.has p = true then x else b.who q := by
  rw [who, seat_put]
  split <;> rfl

lemma has_put : (b.put p x).has q = b.has q := by
  rw [has, seat_put]
  split
  next h =>
    rw [h.1, h.2]
    rfl
  · rfl

variable {x : Option (FwdKey × ℕ)}

lemma seat_of_has (hhas : b.has p) (hwho : b.who p = x) : b.seat p = some x := by
  obtain ⟨y, hy⟩ := isSome_iff_exists.mp hhas
  rw [who, hy] at hwho
  rw [hy]
  exact congrArg some hwho

lemma put_same (h : b.seat p = some x) : b.put p x = b := by
  have hsheets : (b.put p x).sheets = b.sheets := by
    refine ext_getElem? fun lj => ?_
    rw [put, getElem?_onSheet]
    split
    next heq =>
      subst heq
      rw [seat] at h
      cases hs : b.sheets[p.1]? with
      | none => rfl
      | some s =>
        rw [hs, bind_some] at h
        obtain ⟨hlt, rfl⟩ := List.getElem?_eq_some_iff.mp h
        rw [map_some, set_getElem_self hlt]
    · rfl
  show { b with sheets := (b.put p x).sheets } = b
  rw [hsheets]

end Book

/-! ## A session stays the same one -/

namespace Session

def Same (s s' : Session) : Prop := s'.key = s.key ∧ s'.id = s.id

variable (s : Session)

lemma same_settle : s.Same s.settle := by
  rw [settle]
  split <;> exact ⟨rfl, rfl⟩

lemma same_onAnswer (now : ℕ) : s.Same (s.onAnswer now) := by
  rw [onAnswer]
  split
  · exact ⟨rfl, rfl⟩
  · exact same_settle { s with answered := true }

lemma same_onDatagram (u : Udp4) (port now : ℕ) (found : Bool) :
    s.Same (s.onDatagram u port now found) := by
  rw [onDatagram]
  split
  · exact ⟨rfl, rfl⟩
  · exact same_settle { s with last := now, again := s.again || found }

lemma same_onSweep (cfg : Config) (env : Env) (neighbors : Table Ipv4 Mac) :
    s.Same (s.onSweep cfg env neighbors) := by
  rw [onSweep]
  split <;> exact ⟨rfl, rfl⟩

end Session

def Local.sheet (l : Local) : Sheet where
  seats := l.slots.map fun s => s.map fun s => (s.key, s.id)
  held := l.held
  prefixes := l.prefixes

namespace Engine

def book (e : Engine) : Book where
  sheets := e.locals.map Local.sheet
  fwd := e.fwd
  stale := e.stale
  nextId := e.nextId
  shards := e.shards
  underflow := e.underflow

variable {e : Engine} {p : Place} {s : Session}

/-! ## What the parts of the sections do to the book -/

lemma getElem?_sheets (e : Engine) (li : ℕ) :
    e.book.sheets[li]? = (e.locals[li]?).map Local.sheet := getElem?_map

lemma seat_book (e : Engine) (p : Place) : e.book.seat p =
    ((e.locals[p.1]?).bind fun l => l.slots[p.2]?).map fun s => s.map fun s => (s.key, s.id) := by
  rw [Book.seat, getElem?_sheets]
  cases e.locals[p.1]? with
  | none => rfl
  | some l => exact getElem?_map

lemma who_book (e : Engine) (p : Place) :
    e.book.who p = (e.slot p).map fun s => (s.key, s.id) := by
  rw [Book.who, seat_book, slot]
  cases (e.locals[p.1]?).bind fun l => l.slots[p.2]? <;> rfl

lemma has_book (e : Engine) (p : Place) : e.book.has p ↔ e.HasSlot p := by
  rw [Book.has, seat_book, isSome_map, HasSlot]
  cases e.locals[p.1]? with
  | none | some l => simp

lemma seat_book_of_slot (h : e.slot p = some s) : e.book.seat p = some (some (s.key, s.id)) := by
  rw [slot, join_eq_some_iff] at h
  rw [seat_book, h]
  rfl

lemma has_book_of_slot (h : e.slot p = some s) :
    e.book.has p ∧ e.book.who p = some (s.key, s.id) := by
  rw [Book.has, Book.who, seat_book_of_slot h]
  exact ⟨rfl, rfl⟩

variable {f : Local → Local}

lemma book_onLocal {li : ℕ} {F : Sheet → Sheet}
    (hf : ∀ l, e.locals[li]? = some l → (f l).sheet = F l.sheet) :
    (e.onLocal li f).book = e.book.onSheet li F := by
  have hsheets : (e.onLocal li f).book.sheets = (e.book.onSheet li F).sheets := by
    refine ext_getElem? fun lj => ?_
    rw [getElem?_sheets, Book.getElem?_onSheet, getElem?_sheets, onLocal, getElem?_modify]
    split
    next heq =>
      subst heq
      cases hl : e.locals[li]? with
      | none => rfl
      | some l => exact congrArg some (hf l hl)
    · cases e.locals[lj]? <;> rfl
  show { e.book with sheets := (e.onLocal li f).book.sheets } = e.book.onSheet li F
  rw [hsheets]
  rfl

lemma book_onLocal_same {li : ℕ} (hf : ∀ l, (f l).sheet = l.sheet) :
    (e.onLocal li f).book = e.book := by
  rw [book_onLocal (F := id) fun l _ => hf l, Book.onSheet, modify_id]

lemma book_setSlot (e : Engine) (p : Place) (x : Option Session) :
    (e.setSlot p x).book = e.book.put p (x.map fun s => (s.key, s.id)) := by
  refine book_onLocal fun l _ => ?_
  simp only [Local.sheet, map_set]

lemma book_setSlot_same {s' : Session} (h : e.slot p = some s) (hsame : s.Same s') :
    (e.setSlot p (some s')).book = e.book := by
  rw [book_setSlot, map_some, hsame.1, hsame.2]
  exact Book.put_same (seat_book_of_slot h)

lemma book_forget (e : Engine) (key : FwdKey) (p : Place) :
    (e.forget key p).book = e.book.forget key p := by
  rw [forget, Book.forget]
  by_cases h : e.fwd.lookup key = some p
  · rw [if_pos h, if_pos (show e.book.fwd.lookup key = some p from h)]
    rfl
  · rw [if_neg h, if_neg (show ¬ e.book.fwd.lookup key = some p from h)]

lemma book_clearRow (e : Engine) (r : StaleRow) : (e.clearRow r).book = e.book.clear r := by
  have htest : ((e.slot r.place).any fun s => s.key = r.key && s.id ≠ r.id) =
      ((e.book.who r.place).any fun w => w.1 = r.key && w.2 ≠ r.id) := by
    rw [who_book, Option.any_map]
  rw [clearRow, Book.clear, htest]
  split
  · rfl
  · exact book_forget e r.key r.place

lemma book_takeOut (e : Engine) (p : Place) (s : Session) (shard : ℕ) :
    (e.takeOut p s shard).book = e.book.takeOut p s shard := by
  rw [takeOut, Book.takeOut]
  split
  · rw [book_forget, book_setSlot, map_none]
  · rw [book_setSlot, map_none]

lemma book_ask (e : Engine) (hop : Ipv4) (now : ℕ) : (e.ask hop now).book = e.book := by
  rw [ask]
  split <;> rfl

/-! ## What the sections do to the book -/

lemma book_answer (env : Env) (p : Place) (u : Udp4) (now : ℕ) :
    (e.answer env p u now).1.book = e.book := by
  rw [answer]
  cases hs : e.slot p with
  | none => rfl
  | some s =>
    dsimp only
    split_ifs
    · rfl
    · rfl
    · exact book_setSlot_same hs (s.same_onAnswer now)

lemma book_passOn {s' : Session} (hs : e.slot p = some s) (hsame : s.Same s') (now : ℕ) :
    (e.passOn p s' now).1.book = e.book := by
  rw [passOn]
  cases s'.hopMac.or (e.neighbors.lookup s'.hop) with
  | some m => exact book_setSlot_same hs hsame
  | none =>
    dsimp only
    split
    · have hs' : (e.ask s'.hop now).slot p = some s := by
        rw [ask]
        split <;> exact hs
      have hstay : ((e.ask s'.hop now).setSlot p (some { s' with arpSent := some now })).book =
          (e.ask s'.hop now).book := book_setSlot_same hs' hsame
      exact hstay.trans (book_ask e s'.hop now)
    · exact book_setSlot_same hs hsame

lemma book_forward (env : Env) (p : Place) (key : FwdKey) (u : Udp4) (port now : ℕ)
    (found : Bool) :
    (e.forward env p key u port now found).1.book = e.book ∧
      ((e.forward env p key u port now found).2 = none →
        ∀ w, e.book.who p = some w → w.1 ≠ key) := by
  rw [forward, who_book]
  cases hs : e.slot p with
  | none => exact ⟨rfl, fun _ w hw => by cases hw⟩
  | some s =>
    dsimp only
    split_ifs with hkey hdrop
    · refine ⟨rfl, fun _ w hw => ?_⟩
      cases hw
      exact hkey
    · exact ⟨rfl, fun h => by cases h⟩
    · exact ⟨book_passOn hs (s.same_onDatagram u port now found) now, fun h => by cases h⟩

variable (cfg : Config)

lemma book_popWaiting (e : Engine) (li : ℕ) (net : UInt32) : (e.popWaiting cfg li net).1.book =
      e.book.after cfg (.popWaiting li net) (e.popWaiting cfg li net).2 := by
  rw [popWaiting]
  split
  · rfl
  rename_i l ports hports
  split_ifs
  · rfl
  split
  · rfl
  rename_i w rest hw
  refine book_onLocal fun l' hl' => ?_
  rw [hl', bind_some] at hports
  obtain ⟨ports', hlookup, heq⟩ := map_eq_some_iff.mp hports
  cases heq
  have hsheet : l.sheet.prefixes.lookup net = some ports := hlookup
  have htail : ports.waiting.tail = rest := by rw [hw]; rfl
  rw [Sheet.pop, hsheet, ← htail]
  rfl

lemma book_lower (e : Engine) (n : ℕ) : (e.lower n).book = e.book.lower (some n) := by
  simp only [book, lower, Book.lower, Option.some.injEq]

lemma book_heldDown (e : Engine) (li : ℕ) :
    (e.heldDown li).book = e.book.after cfg (.heldDown li) () := by
  rw [heldDown, Book.after, getElem?_sheets]
  cases hl : e.locals[li]? with
  | none =>
    have hnone : e.book.sheets[li]? = none := by rw [getElem?_sheets, hl]; rfl
    rw [map_none, map_none, Book.lower_none, Book.onSheet_absent hnone]
  | some l =>
    rw [map_some, map_some]
    rw [← book_lower]
    exact book_onLocal fun l' _ => rfl

lemma book_prefixDown (e : Engine) (li : ℕ) (net : UInt32) :
    (e.prefixDown li net).book = e.book.after cfg (.prefixDown li net) () := by
  have hports : ((e.book.sheets[li]?).bind fun s => (s.prefixes.lookup net).map PrefixPorts.held) =
      ((e.locals[li]?).bind fun l => l.prefixes.lookup net).map PrefixPorts.held := by
    rw [getElem?_sheets]
    cases e.locals[li]? <;> rfl
  rw [prefixDown, Book.after, hports]
  cases hl : (e.locals[li]?).bind fun l => l.prefixes.lookup net with
  | none =>
    have hsame : (e.onLocal li id).book = e.book.onSheet li fun s => s.down net := by
      refine book_onLocal fun l hsome => ?_
      rw [hsome, bind_some] at hl
      have hsheet : l.sheet.prefixes.lookup net = none := hl
      rw [Sheet.down, hsheet]
      rfl
    rw [onLocal, modify_id] at hsame
    rw [map_none, Book.lower_none]
    exact hsame
  | some ports =>
    rw [map_some]
    rw [← book_lower]
    refine book_onLocal fun l hsome => ?_
    have hlocal : e.locals[li]? = some l := hsome
    rw [hlocal, bind_some] at hl
    have hsheet : l.sheet.prefixes.lookup net = some ports := hl
    rw [Sheet.down, hsheet]
    rfl

lemma book_register (e : Engine) (ip : Ipv4) (port count : UInt16) (rule : ℕ) :
    (e.register cfg ip port count rule).1.book = e.book := by
  rw [register]
  split
  · rfl
  dsimp only
  split <;> rfl

lemma book_learn (e : Engine) (port : ℕ) (a : Arp) : (e.learn cfg port a).book = e.book := by
  rw [learn]
  split <;> rfl

lemma book_endWaiting (e : Engine) (p : Place) (id shard : ℕ) :
    (e.endWaiting p id shard).1.book = e.book.after cfg (.endWaiting p id shard)
    (e.endWaiting p id shard).2 ∧
      e.book.Saw (.endWaiting p id shard) (e.endWaiting p id shard).2 := by
  rw [endWaiting]
  cases hs : e.slot p with
  | none => exact ⟨rfl, trivial⟩
  | some s =>
    dsimp only
    split
    · exact ⟨book_takeOut e p s shard, has_book_of_slot hs⟩
    · exact ⟨rfl, trivial⟩

lemma book_probe (env : Env) (e : Engine) (p : Place) (shard : ℕ) :
    (e.probe env p shard).1.book = e.book.after cfg (.probe p shard) (e.probe env p shard).2 ∧
      e.book.Saw (.probe p shard) (e.probe env p shard).2 := by
  rw [probe]
  split_ifs with hbusy
  · exact ⟨rfl, trivial⟩
  have hhas : e.HasSlot p := by
    by_contra hno
    exact hbusy (.inr (.inr hno))
  cases hs : e.slot p with
  | none => exact ⟨rfl, (has_book e p).mpr hhas, by rw [who_book, hs]; rfl⟩
  | some s =>
    dsimp only
    split
    · exact ⟨book_takeOut e p s shard, has_book_of_slot hs⟩
    · exact ⟨rfl, trivial⟩

lemma book_sweepSlot (env : Env) (e : Engine) (p : Place) (now : ℕ) :
    (e.sweepSlot cfg env p now).1.book =
        e.book.after cfg (.sweepSlot p now) (e.sweepSlot cfg env p now).2 ∧
      e.book.Saw (.sweepSlot p now) (e.sweepSlot cfg env p now).2 := by
  rw [sweepSlot]
  cases hs : e.slot p with
  | none => exact ⟨rfl, trivial⟩
  | some s =>
    dsimp only
    split
    · exact ⟨book_setSlot e p none, has_book_of_slot hs⟩
    · exact ⟨book_setSlot_same hs (s.same_onSweep cfg env e.neighbors), trivial⟩

end Engine

lemma book_exec (cfg : Config) (env : Env) (e : Engine) (o : Op) :
    (exec cfg env e o).1.book = e.book.after cfg o (exec cfg env e o).2 ∧
      e.book.Saw o (exec cfg env e o).2 := by
  cases o with
  | answer p u now => exact ⟨Engine.book_answer env p u now, trivial⟩
  | forward p key u port now found =>
    obtain ⟨hbook, hsaw⟩ := Engine.book_forward (e := e) env p key u port now found
    refine ⟨hbook, ?_⟩
    show e.book.Saw (.forward p key u port now found) (e.forward env p key u port now found).2
    cases hr : (e.forward env p key u port now found).2 with
    | none => exact hsaw hr
    | some v => trivial
  | forget key p => exact ⟨Engine.book_forget e key p, trivial⟩
  | takeStale => exact ⟨rfl, rfl⟩
  | clearRow r => exact ⟨Engine.book_clearRow e r, trivial⟩
  | lockShard key => exact ⟨rfl, rfl⟩
  | popWaiting li net => exact ⟨Engine.book_popWaiting cfg e li net, trivial⟩
  | endWaiting p id shard => exact Engine.book_endWaiting cfg e p id shard
  | heldDown li => exact ⟨Engine.book_heldDown cfg e li, trivial⟩
  | prefixDown li net => exact ⟨Engine.book_prefixDown cfg e li net, trivial⟩
  | cursor li => exact ⟨Engine.book_onLocal_same fun l => rfl, trivial⟩
  | probe p shard => exact Engine.book_probe cfg env e p shard
  | install p s =>
    have hput := Engine.book_setSlot e p (some { s with id := e.nextId })
    exact ⟨congrArg (fun b : Book =>
      { b with nextId := e.nextId + 1, fwd := e.fwd.insert s.key p }) hput, rfl⟩
  | heldUp li | prefixUp li net n id => exact ⟨Engine.book_onLocal fun l _ => rfl, trivial⟩
  | sweepSlot p now => exact Engine.book_sweepSlot cfg env e p now
  | learn port a => exact ⟨Engine.book_learn cfg e port a, trivial⟩
  | register ip port count rule => exact ⟨Engine.book_register cfg e ip port count rule, trivial⟩
  | phase | admits | target | starts | find key | staleLen | unlockShard shard | pushStale r
  | unlockSlot p | rules | unregister ip port count rule => exact ⟨rfl, trivial⟩

end Rproxy.Dpdk
