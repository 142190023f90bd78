import Rproxy.L7.Cache.Sharing

/-!
# Private answers

A backend says with `Cache-Control`, `Set-Cookie` or `Vary: *` that an answer is for one client
only. `Private` reads that off the header lines as they are, each byte a character.
-/

namespace Rproxy.Cache
open List
variable {h : HeaderMap} {name : HeaderName}

/-! ## What a header says -/

open HeaderValue HeaderMap

def isBlank (c : Char) : Bool := c == ' ' || c == '\t'

open Text

def bare (s : String) : String := lower (String.ofList (trimMatches isBlank s.toList))

def line (v : HeaderValue) : String := String.ofList (chars v.bytes)

def forbidding : List String := ["no-store", "private", "no-cache"]

def Forbids (v : HeaderValue) : Prop :=
  ∃ d ∈ splitOn ',' (line v), bare ((splitOn '=' d).headD "") ∈ forbidding

def VariesByAll (v : HeaderValue) : Prop :=
  ∃ n ∈ splitOn ',' (line v), bare n = "*"

def Private (h : HeaderMap) : Prop :=
  (∃ v ∈ h.getAll cacheControl, Forbids v) ∨ h.containsKey setCookie = true ∨
    ∃ v ∈ h.getAll vary, VariesByAll v

instance (v : HeaderValue) : Decidable (Forbids v) := inferInstanceAs (Decidable (∃ _ ∈ _, _))

instance (v : HeaderValue) : Decidable (VariesByAll v) := inferInstanceAs (Decidable (∃ _ ∈ _, _))

instance (h : HeaderMap) : Decidable (Private h) := inferInstanceAs (Decidable (_ ∨ _ ∨ _))

/-- The lines that are text, and every `Set-Cookie`. -/
def readable (h : HeaderMap) : HeaderMap :=
  h.filter fun l => l.2.isText || l.1 = setCookie

/-! ## What the cache reads of it -/

lemma isWhitespace_eq_isBlank {b : UInt8} (hb : textByte b) :
    isWhitespace (Char.ofNat b.toNat) = isBlank (Char.ofNat b.toNat) := by
  have hall : ∀ n : Fin 256, textByte (UInt8.ofNat n) →
      isWhitespace (Char.ofNat n) = isBlank (Char.ofNat n) := by
    decide +kernel
  exact hall ⟨b.toNat, b.toNat_lt⟩ (by rwa [UInt8.ofNat_toNat])

lemma bare_of_isText {v : HeaderValue} (hv : v.isText) {s : String}
    (hs : ∀ c ∈ s.toList, c ∈ (line v).toList) : lower (trim s) = bare s := by
  rw [trim, bare, trimMatches_congr]
  intro c hc
  have hmem := hs c hc
  rw [line, String.toList_ofList, chars, mem_map] at hmem
  obtain ⟨b, hb, rfl⟩ := hmem
  exact isWhitespace_eq_isBlank (all_eq_true.mp hv b hb)

lemma filterMap_toStr (l : List HeaderValue) :
    l.filterMap toStr = (l.filter isText).map line := by
  induction l with
  | nil => rfl
  | cons v l ih =>
    cases hv : v.isText with
    | true => simp [toStr_of_isText hv, hv, ih, line]
    | false => simp [toStr_of_not_isText hv, hv, ih]

lemma getAll_readable (hname : name ≠ setCookie) (h : HeaderMap) :
    (readable h).getAll name = (h.getAll name).filter isText := by
  rw [getAll, readable, filterMap_filter, getAll, filter_filterMap]
  refine filterMap_congr fun l _ => ?_
  by_cases hl : l.1 = name
  · cases htext : l.2.isText <;> simp [hl, hname, htext, Option.filter_some]
  · simp [hl]

lemma containsKey_readable (h : HeaderMap) :
    (readable h).containsKey setCookie = h.containsKey setCookie := by
  rw [containsKey, readable, any_filter]
  refine any_congr rfl fun l => ?_
  cases l.2.isText <;> simp

lemma exists_member (hname : name ≠ setCookie) (h : HeaderMap) (d : String) :
    d ∈ ((h.getAll name).filterMap toStr).flatMap (Text.splitOn ',') ↔
      ∃ v ∈ (readable h).getAll name, d ∈ Text.splitOn ',' (line v) := by
  rw [filterMap_toStr, getAll_readable hname, mem_flatMap]
  simp only [mem_map, exists_exists_and_eq_and]

lemma isText_of_mem (hname : name ≠ setCookie) {v : HeaderValue}
    (hv : v ∈ (readable h).getAll name) : v.isText := by
  rw [getAll_readable hname] at hv
  exact (mem_filter.mp hv).2

lemma any_eqIgnoreCase (s : String) :
    (["no-store", "private", "no-cache"].any fun f => eqIgnoreCase s f) = true ↔
      lower s ∈ forbidding := by
  have hlower : ∀ f ∈ forbidding, lower f = f := by decide +kernel
  rw [any_eq_true]
  constructor
  · rintro ⟨f, hf, heq⟩
    rw [eqIgnoreCase, beq_iff_eq, hlower f hf] at heq
    exact heq ▸ hf
  intro hs
  refine ⟨_, hs, ?_⟩
  rw [eqIgnoreCase, beq_iff_eq, hlower _ hs]

lemma forbids_iff (h : HeaderMap) :
    ((((h.getAll cacheControl).filterMap toStr).flatMap (Text.splitOn ',')).any fun d =>
      ["no-store", "private", "no-cache"].any fun f =>
        eqIgnoreCase (Text.trim ((Text.splitOn '=' d).headD "")) f) ↔
      ∃ v ∈ (readable h).getAll cacheControl, Forbids v := by
  have hname : cacheControl ≠ setCookie := by decide
  -- of a directive in a line that is text the cache reads the name
  have hdirective {v : HeaderValue} (hv : v ∈ (readable h).getAll cacheControl) {d : String}
      (hd : d ∈ Text.splitOn ',' (line v)) :
      (["no-store", "private", "no-cache"].any fun f =>
        eqIgnoreCase (Text.trim ((Text.splitOn '=' d).headD "")) f) ↔
        bare ((Text.splitOn '=' d).headD "") ∈ forbidding := by
    have hchars : ∀ c ∈ ((Text.splitOn '=' d).headD "").toList, c ∈ (line v).toList := by
      intro c hc
      cases hsplit : Text.splitOn '=' d with
      | nil =>
        rw [hsplit] at hc
        cases hc
      | cons n rest =>
        rw [hsplit] at hc
        have hn : n ∈ Text.splitOn '=' d := hsplit ▸ mem_cons_self
        exact Text.mem_of_mem_splitOn hd (Text.mem_of_mem_splitOn hn hc)
    rw [← bare_of_isText (isText_of_mem hname hv) hchars]
    exact any_eqIgnoreCase _
  rw [any_eq_true]
  constructor
  · rintro ⟨d, hd, hforbids⟩
    obtain ⟨v, hv, hd⟩ := (exists_member hname h d).mp hd
    exact ⟨v, hv, d, hd, (hdirective hv hd).mp hforbids⟩
  rintro ⟨v, hv, d, hd, hforbids⟩
  exact ⟨d, (exists_member hname h d).mpr ⟨v, hv, hd⟩, (hdirective hv hd).mpr hforbids⟩

lemma variesByAll_iff (h : HeaderMap) : (varyNames h).any (· == "*") ↔
    ∃ v ∈ (readable h).getAll vary, VariesByAll v := by
  have hname : vary ≠ setCookie := by decide
  have hmember {v : HeaderValue} (hv : v ∈ (readable h).getAll vary) {n : String}
      (hn : n ∈ splitOn ',' (line v)) : lower (trim n) = bare n :=
    bare_of_isText (isText_of_mem hname hv) fun _ hc => mem_of_mem_splitOn hn hc
  rw [any_eq_true]
  simp only [varyNames, mem_filter, mem_map, beq_iff_eq]
  constructor
  · rintro ⟨_, ⟨⟨n, hn, rfl⟩, -⟩, hstar⟩
    obtain ⟨v, hv, hn⟩ := (exists_member hname h n).mp hn
    exact ⟨v, hv, n, hn, (hmember hv hn).symm.trans hstar⟩
  rintro ⟨v, hv, n, hn, hstar⟩
  have hlower := (hmember hv hn).trans hstar
  exact ⟨_, ⟨⟨n, (exists_member hname h n).mpr ⟨v, hv, hn⟩, hlower⟩, by decide⟩, rfl⟩

lemma shareable_iff (h : HeaderMap) : shareable h ↔ ¬ Private (readable h) := by
  rw [shareable, Bool.and_eq_true, Bool.and_eq_true, Bool.not_eq_true', Bool.not_eq_true',
    Bool.not_eq_true', ← Bool.not_eq_true, ← Bool.not_eq_true, ← Bool.not_eq_true, forbids_iff,
    variesByAll_iff, ← containsKey_readable, Private, not_or, not_or, and_assoc]

/-! ## Keeping and handing over -/

/-- The sections that give an answer to other requests: an entry goes into the store, or those that
wait are told. -/
def Op.publishes : Op → Bool
  | .finish _ _ _ kept _ => kept.isSome
  | .send _ (.fresh _) => true
  | .send _ (.error _) => true
  | _ => false

/-- `Cache::response` gives an answer with these headers to no other request, whatever its status
and its body. -/
def Unshared (h : HeaderMap) : Prop :=
  ∀ (cfg : Settings) (c : Nat) (key : Key) (r : Request) (lead : Option Nat) (resp : Response),
    resp.headers = h → (response cfg c key r lead resp).All fun o => o.publishes = false

lemma verdict_ne_keep {cfg : Settings} {resp : Response} (h : shareable resp.headers = false) :
    verdict cfg resp ≠ .keep := by
  rw [verdict]
  split
  · nofun
  rw [h]
  nofun

lemma finishLead_unshared (c : Nat) (key : Key) (f : Nat) {done : Done} (mark : Mark)
    (hdone : (Op.send f done).publishes = false) :
    (finishLead c key f done none mark).All fun o => o.publishes = false :=
  ⟨rfl, fun _ => ⟨hdone, fun _ => trivial⟩⟩

lemma unshared_of_not_shareable (hh : shareable h = false) : Unshared h := by
  rintro cfg c key r lead resp rfl
  unfold response
  split
  · refine ⟨rfl, fun old => ?_⟩
    cases old with
    | none =>
      cases lead with
      | none => trivial
      | some f =>
        show (shareError c key r f resp).All _
        rw [shareError, if_pos hh]
        exact finishLead_unshared c key f _ rfl
    | some old =>
      cases lead with
      | none => exact ⟨rfl, fun _ => ⟨rfl, fun _ => trivial⟩⟩
      | some f => exact (finishLead_unshared c key f _ rfl).bind fun _ => ⟨rfl, fun _ => trivial⟩
  cases lead with
  | none => trivial
  | some f =>
    cases hverdict : verdict cfg resp with
    | keep => exact absurd hverdict (verdict_ne_keep hh)
    | strike | reset => exact finishLead_unshared c key f _ rfl

lemma shareable_of_unshared (hh : Unshared h) : shareable h = false := by
  by_contra hshareable
  have hall := hh shortLived 0 [] plainGet (some 0) ⟨500, h⟩ rfl
  -- there is no old answer, and the body is read
  have hcollect := hall.2 none
  change (shareError 0 [] plainGet 0 ⟨500, h⟩).All _ at hcollect
  rw [shareError, if_neg (by simp [hshareable])] at hcollect
  have hentry := hcollect.2 (some (.ok []))
  have hsend := ((hentry.2 (makeEntry shortLived 0 0 [] ⟨500, h⟩ [] [])).2 ()).1
  cases hsend

/-- **A private answer is kept and handed over exactly if no line that is text says that it is
private.** -/
theorem private_unshared_iff (h : HeaderMap) :
    (Private h → Unshared h) ↔ (Private h → Private (readable h)) := by
  have hiff : Unshared h ↔ Private (readable h) := by
    have hread := shareable_iff h
    rw [iff_not_comm, Bool.not_eq_true] at hread
    exact ⟨fun hu => hread.mpr (shareable_of_unshared hu),
      fun hp => unshared_of_not_shareable (hread.mp hp)⟩
  rw [hiff]

def markedPrivate : HeaderValue where
  bytes := [0x70, 0x72, 0x69, 0x76, 0x61, 0x74, 0x65, 0x2C, 0x20, 0x6F, 0x77, 0x6E, 0x65, 0x72,
    0x3D, 0xE9]
  valid := by decide +kernel

def guarded : Env := { calm with response := some ⟨200, [(cacheControl, markedPrivate)]⟩ }

def disclosed : List (Event Env Call) :=
  [.start ⟨0, plainGet⟩, .start ⟨0, plainGet⟩, .step 0 guarded, .step 1 guarded, .step 0 guarded,
    .step 0 guarded, .step 0 guarded, .step 0 guarded, .step 0 guarded, .step 1 guarded]

def discloses (x : Configuration Op Ret State Call) : Bool :=
  (x.state.stores.any fun store => (store.entryAt (key shortLived plainGet)).any fun e =>
    decide (Private e.headers)) &&
  (answering x 1).any fun a => decide (a.2.1 = .hit ∧ Private a.1.headers)

/-- The answer is private, yet the cache keeps it, and gives it to the other request. -/
theorem private_kept_and_shared : Private [(cacheControl, markedPrivate)] ∧
      ∃ x, (system fun _ => shortLived).Reach (fun _ _ => True) ⟨.initial 1 0, []⟩ x ∧
        (∃ store ∈ x.state.stores, ∃ e, store.entryAt (key shortLived plainGet) = some e ∧
          Private e.headers) ∧
        ∃ t ∈ x.threads, ∃ e time way, t.rest.next? = some (.answer e .hit time way) ∧
          Private e.headers := by
  obtain ⟨x, hx, hp⟩ : ∃ x, (system fun _ => shortLived).Reach (fun _ _ => True)
      ⟨.initial 1 0, []⟩ x ∧ discloses x = true := by
    have htrace : (((system fun _ => shortLived).trace (fun _ _ => true) (fun _ _ _ => id) disclosed
        ⟨.initial 1 0, []⟩ ()).any fun x => discloses x.1) = true := by
      decide +kernel
    exact System.exists_reach_of_trace (fun _ _ _ _ => trivial) htrace
  obtain ⟨hstored, hanswered⟩ := Bool.and_eq_true_iff.mp hp
  obtain ⟨store, hstore, he⟩ := any_eq_true.mp hstored
  obtain ⟨e, he, hprivate⟩ := (Option.any_eq_true _ _).mp he
  obtain ⟨⟨e', outcome, time⟩, hanswer, hhit⟩ := (Option.any_eq_true _ _).mp hanswered
  obtain ⟨rfl, hprivate'⟩ := of_decide_eq_true hhit
  obtain ⟨t, ht, way, hnext⟩ := answering_eq hanswer
  exact ⟨by decide +kernel, x, hx, ⟨store, hstore, e, he, of_decide_eq_true hprivate⟩,
    t, ht, e', time, way, hnext, hprivate'⟩

end Rproxy.Cache
