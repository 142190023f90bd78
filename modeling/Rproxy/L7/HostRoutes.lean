import Rproxy.L7.ClientHeaders
import Rproxy.L7.Matcher

/-!
# The host that routes see

`request_host` takes the port and the brackets off the authority of a request, and
`Matcher::matches` takes a port off what is left, with a `strip_port` of its own.
-/

namespace Rproxy
open List ClientHeaders HeaderValue Names Bool Char
namespace HostRoutes
open Text

def stripPort (host : String) : String :=
  match stripStart "[" host with
  | some rest => (splitOn ']' rest).head?.getD rest
  | none =>
    match rsplitOnce ':' host with
    | some (h, port) => if port.toList.all isDigit then h else host
    | none => host

def host (h : String) : String :=
  if h.toList.getLast? = some '.' then String.ofList h.toList.dropLast else h

def requestAuthority (target : Option String) (headers : HeaderMap) : Option HeaderValue :=
  match target with
  | some a => fromStr a
  | none => headers.get ClientHeaders.host

def requestHost (target : Option String) (headers : HeaderMap) : Option String := do
  let raw ← requestAuthority target headers
  let text ← raw.toStr
  return host (lower (stripPort text))

def hostChar (c : Char) : Bool :=
  c.isLower || c.isDigit || "-_.:".toList.contains c

structure IsName (h : List Char) : Prop where
  chars : ∀ c ∈ h, hostChar c = true
  noDot : h.getLast? ≠ some '.'
  noColon : ':' ∉ h
  ne : h ≠ []

structure IsV6 (h : List Char) : Prop where
  chars : ∀ c ∈ h, hostChar c = true
  noDot : h.getLast? ≠ some '.'
  colon : ':' ∈ h

def IsPort (p : List Char) : Prop :=
  p = [] ∨ ∃ digits, p = ':' :: digits ∧ ∀ c ∈ digits, c.isDigit = true

/-- The authorities in lower case that name `h`: a name with or without a trailing dot, an IPv6
address in brackets, each with or without a port. -/
def Spells (h authority : List Char) : Prop :=
  ∃ port, IsPort port ∧
    (IsName h ∧ (authority = h ++ port ∨ authority = h ++ '.' :: port) ∨
      IsV6 h ∧ authority = '[' :: (h ++ ']' :: port))

def endsInNumber (h : String) : Bool :=
  (rsplitOnce ':' h).any fun (_, p) => p.toList.all isDigit

variable {c : Char}

lemma hostChar_spec (h : hostChar c) : visible c ∧
    c.isUpper = false ∧ c ≠ '[' ∧ c ≠ ']' ∧ c ≠ '*' := by
  have hc : c.toNat < 128 := by
    rcases or_eq_true _ _ ▸ h with h | h
    · refine toNat_lt_of_isAlphanumeric ?_
      rcases or_eq_true _ _ ▸ h with h | h <;> simp [isAlphanumeric, h]
    have hall : ("-_.:".toList.all fun x => x.toNat < 128) := by decide
    rw [contains_eq_mem, decide_eq_true_eq] at h
    exact of_decide_eq_true (all_eq_true.mp hall c h)
  exact forall_ascii (P := fun c => hostChar c = true →
    visible c ∧ c.isUpper = false ∧ c ≠ '[' ∧ c ≠ ']' ∧ c ≠ '*')
    (by decide +kernel) hc h

lemma lowerChar_of_not_isUpper (h : c.isUpper = false) : lowerChar c = c := by
  simp [lowerChar, h]

lemma isDigit_of_lowerChar (h : (lowerChar c).isDigit) : c.isDigit := by
  have hlt : (lowerChar c).toNat < 65 := by
    simp only [isDigit, and_eq_true, decide_eq_true_eq] at h
    exact lt_of_le_of_lt (show (lowerChar c).toNat ≤ 57 from h.2) (by decide)
  rw [lowerChar_eq_of_lt (.inl hlt) rfl]
  exact h

variable {p : List Char}

lemma isPort_of_map (h : IsPort (p.map lowerChar)) : IsPort p := by
  rcases h with h | ⟨digits, h, hdigits⟩
  · exact .inl (map_eq_nil_iff.mp h)
  obtain ⟨c, d, rfl, hc, rfl⟩ := map_eq_cons_iff.mp h
  refine .inr ⟨d, by rw [lowerChar_eq_of_lt (.inl (by decide)) hc], fun x hx => ?_⟩
  exact isDigit_of_lowerChar (hdigits _ (mem_map_of_mem hx))

/-! ## Ports -/

lemma rsplitOnce_append {a b : List Char} (h : c ∉ b) :
    rsplitOnce c (String.ofList (a ++ c :: b)) = some (String.ofList a, String.ofList b) := by
  have hne : ∀ x ∈ b.reverse, (x != c) = true := fun x hx =>
    bne_iff_ne.mpr fun heq => h (heq ▸ mem_reverse.mp hx)
  have hrev : (String.ofList (a ++ c :: b)).toList.reverse = b.reverse ++ c :: a.reverse := by simp
  rw [rsplitOnce, hrev, dropWhile_append_of_pos hne, takeWhile_append_of_pos hne]
  simp

lemma rsplitOnce_eq_none {s : String} (h : c ∉ s.toList) : rsplitOnce c s = none := by
  have hdrop : s.toList.reverse.dropWhile (· != c) = [] :=
    dropWhile_eq_nil_iff.mpr fun x hx => bne_iff_ne.mpr fun heq => h (heq ▸ mem_reverse.mp hx)
  rw [rsplitOnce, hdrop]

lemma colon_of_isPort (h : IsPort p) : p = [] ∨ ∃ d, p = ':' :: d ∧ ':' ∉ d ∧
    d.all isDigit := by
  refine h.imp_right fun ⟨d, hp, hd⟩ => ⟨d, hp, fun hmem => ?_, all_eq_true.mpr hd⟩
  exact absurd (hd _ hmem) (by decide)

variable {x : List Char}

lemma stripPort_name {port : List Char} (hx : ':' ∉ x) (hhead : (x ++ port).head? ≠ some '[')
    (hport : IsPort port) : stripPort (String.ofList (x ++ port)) = String.ofList x := by
  have hstart : stripStart "[" (String.ofList (x ++ port)) = none := by
    rw [stripStart]
    cases h : x ++ port with
    | nil => simp
    | cons c l =>
      rw [h, head?_cons, ne_eq, Option.some.injEq] at hhead
      simp [List.isPrefixOf, Ne.symm hhead]
  rw [stripPort, hstart]
  rcases colon_of_isPort hport with rfl | ⟨d, rfl, hd, hdigits⟩
  · rw [append_nil, rsplitOnce_eq_none (by simpa using hx)]
  rw [rsplitOnce_append hd]
  simp [hdigits]

lemma stripPort_bracketed {port : List Char} (hx : ']' ∉ x) :
    stripPort (String.ofList ('[' :: (x ++ ']' :: port))) = String.ofList x := by
  have hstart : stripStart "[" (String.ofList ('[' :: (x ++ ']' :: port))) =
      some (String.ofList (x ++ ']' :: port)) := by
    simp [stripStart]
  rw [stripPort, hstart]
  simp only [splitOn_eq, String.toList_ofList, splitOn_append_cons_self, splitOn_eq_singleton hx]
  rfl

lemma host_of_dot (h : List Char) : host (String.ofList (h ++ ['.'])) = String.ofList h := by
  simp [host]

variable {h : List Char}

lemma host_of_noDot (hh : h.getLast? ≠ some '.') : host (String.ofList h) = String.ofList h := by
  simp [host, hh]

lemma notMem_of_map (hc : lowerChar c = c) (h : c ∉ x.map lowerChar) : c ∉ x :=
  fun hmem => h (mem_map.mpr ⟨c, hmem, hc⟩)

lemma host_of_spelling {a : List Char} (hs : Spells h (a.map lowerChar)) :
    host (lower (stripPort (String.ofList a))) = String.ofList h := by
  obtain ⟨port, hport, ⟨hname, hw⟩ | ⟨hv6, hw⟩⟩ := hs
  · have hstrip : ∀ y, y.head? = h.head? → ':' ∉ y → a.map lowerChar = y ++ port →
        lower (stripPort (String.ofList a)) = String.ofList y := by
      intro y hy hcolon hya
      obtain ⟨x, p, rfl, hx, hp⟩ := map_eq_append_iff.mp hya
      rw [stripPort_name (notMem_of_map (by decide) (hx ▸ hcolon)) ?_
        (isPort_of_map (hp ▸ hport)), lower, String.toList_ofList, hx]
      intro hhead
      have hfirst := congrArg (Option.map lowerChar) hhead
      rw [← head?_map, map_append, hx] at hfirst
      obtain ⟨c, l, rfl⟩ := exists_cons_of_ne_nil hname.ne
      have hyc : y.head? = some c := hy
      rw [head?_append, hyc] at hfirst
      have hbracket : c = '[' := (Option.some.inj hfirst).trans (by decide)
      exact (hostChar_spec (hname.chars c mem_cons_self)).2.2.1 hbracket
    rcases hw with hw | hw
    · rw [hstrip h rfl hname.noColon hw, host_of_noDot hname.noDot]
    rw [hstrip (h ++ ['.']) ?_ ?_ (by rw [hw]; simp), host_of_dot]
    · obtain ⟨c, l, rfl⟩ := exists_cons_of_ne_nil hname.ne
      rfl
    · simpa using hname.noColon
  have hbracket : ']' ∉ h := fun hmem => (hostChar_spec (hv6.chars _ hmem)).2.2.2.1 rfl
  obtain ⟨c, l, rfl, hc, hl⟩ := map_eq_cons_iff.mp hw
  obtain ⟨x, p, rfl, hx, hp⟩ := map_eq_append_iff.mp hl
  obtain ⟨d, q, rfl, hd, -⟩ := map_eq_cons_iff.mp hp
  rw [lowerChar_eq_of_lt (by simp) hc, lowerChar_eq_of_lt (by simp) hd,
    stripPort_bracketed (notMem_of_map (by decide) (hx ▸ hbracket)), lower,
    String.toList_ofList, hx, host_of_noDot hv6.noDot]

lemma visible_of_spells {a : List Char} (hs : Spells h (a.map lowerChar)) :
    ∀ c ∈ a, visible c := by
  have hport : ∀ p, IsPort p → ∀ c ∈ p, visible c := by
    rintro p (rfl | ⟨d, rfl, hd⟩)
    · simp
    refine forall_mem_cons.mpr ⟨by decide, fun c hc => ?_⟩
    exact (hostChar_spec (by simp [hostChar, hd c hc])).1
  have hall : ∀ c ∈ a.map lowerChar, visible c := by
    obtain ⟨port, hp, ⟨hname, hw⟩ | ⟨hv6, hw⟩⟩ := hs
    · have hh : ∀ c ∈ h, visible c = true := fun c hc =>
        (hostChar_spec (hname.chars c hc)).1
      rcases hw with hw | hw <;> rw [hw]
      · exact forall_mem_append.mpr ⟨hh, hport port hp⟩
      exact forall_mem_append.mpr ⟨hh, forall_mem_cons.mpr ⟨by decide, hport port hp⟩⟩
    rw [hw]
    refine forall_mem_cons.mpr ⟨by decide, forall_mem_append.mpr
      ⟨fun c hc => (hostChar_spec (hv6.chars c hc)).1, forall_mem_cons.mpr
        ⟨by decide, hport port hp⟩⟩⟩
  intro c hc
  by_cases hu : c.isUpper
  · have hle := (toNat_lowerChar hu).2
    simp only [visible, and_eq_true, decide_eq_true_eq]
    omega
  have hv := hall _ (mem_map_of_mem hc)
  rwa [lowerChar_of_not_isUpper (by simpa using hu)] at hv

/-- The text of the authority of a request: of its target, else of the `Host` field. -/
def Authority (target : Option String) (headers : HeaderMap) (a : String) : Prop :=
  target = some a ∨ target = none ∧ ∃ v, headers.get ClientHeaders.host = some v ∧ v.toStr = some a

lemma requestHost_eq {target : Option String} {headers : HeaderMap} {a h : String}
    (ha : Authority target headers a) (hs : Spells h.toList (lower a).toList) :
    requestHost target headers = some h := by
  have hlower : (lower a).toList = a.toList.map lowerChar := String.toList_ofList
  rw [hlower] at hs
  have hhost := host_of_spelling hs
  rw [String.ofList_toList] at hhost
  rcases ha with rfl | ⟨rfl, v, hv, htext⟩
  · obtain ⟨v, hv, htext⟩ := toStr_fromStr (visible_of_spells hs)
    simp [requestHost, requestAuthority, hv, htext, hhost]
  · simp [requestHost, requestAuthority, hv, htext, hhost]

lemma lower_lower (s : String) : lower (lower s) = lower s := by
  have hchar : lowerChar = toLower := by
    funext c
    rw [lowerChar]
    split
    next hu => exact (toLower_eq_of_isUpper hu).symm
    next hu => exact (toLower_eq_of_not_isUpper hu).symm
  simp [lower, hchar, Function.comp_def]

lemma nameMatches_iff {h n : String} (hh : lower h = h) (hstar : '*' ∉ h.toList) :
    nameMatches h (lower n) ↔ lower n = h := by
  have hshape : Names.shape h = .exact h := by
    have hnone : ∀ rest, stripStart (String.ofList ('*' :: rest)) h = none := by
      intro rest
      rw [stripStart, if_neg]
      intro hpre
      rw [String.toList_ofList, isPrefixOf_iff_prefix] at hpre
      exact hstar (hpre.subset mem_cons_self)
    have htwo : stripStart "**." h = none := hnone ['*', '.']
    have hone : stripStart "*." h = none := hnone ['.']
    rw [Names.shape, htwo, hone]
  simp only [nameMatches, matchRank, hh, hshape, lower_lower]
  by_cases heq : h = lower n
  · simp [heq]
  · simp [heq, Ne.symm heq]

lemma stripPort_matcher {h : String} (hh : '[' ∉ h.toList) (hlow : lower h = h) :
    lower (Matcher.stripPort h) = h ↔ endsInNumber h = false := by
  have hstart : startsWith "[" h = false := by
    rw [← not_eq_true, startsWith, isPrefixOf_iff_prefix]
    exact fun hpre => hh (hpre.subset mem_cons_self)
  unfold Matcher.stripPort endsInNumber
  simp only [hstart, false_eq_true, if_false]
  cases hsplit : rsplitOnce ':' h with
  | none => simp [hlow]
  | some parts =>
    obtain ⟨x, p⟩ := parts
    by_cases hdigits : p.toList.all isDigit
    · simp only [hdigits, if_true, Option.any_some, true_eq_false, iff_false]
      -- what is left is shorter
      intro heq
      have hlen : (lower x).toList.length = x.toList.length := by simp [lower]
      unfold rsplitOnce at hsplit
      split at hsplit
      · cases hsplit
      rename_i c rest hdrop
      simp only [Option.some.injEq, Prod.mk.injEq] at hsplit
      have hle := (dropWhile_suffix (l := h.toList.reverse) (· != ':')).length_le
      rw [hdrop, length_cons, length_reverse] at hle
      rw [heq, ← hsplit.1, String.toList_ofList, length_reverse] at hlen
      omega
    · simp [hdigits, hlow]

variable {Regex : Type} [RegexLike Regex]

/-- **How the matcher sees a host.** For every spelling of a name or an IP address `h` as an
authority `request_host` gives `h`; the matcher sees it as `h`, and `Host` of `h` matches, exactly
when `h` does not end in a colon and a decimal number. A name never does. -/
theorem host_seen_iff (h : String) (target : Option String) (headers : HeaderMap) (a : String)
    (ha : Authority target headers a) (hs : Spells h.toList (lower a).toList) :
    requestHost target headers = some h ∧
    (lower (Matcher.stripPort h) = h ↔ endsInNumber h = false) ∧
    (∀ r : Matcher.RequestInfo, r.host = h →
      ((Matcher.host [h] : Matcher Regex).matches r = true ↔ endsInNumber h = false)) ∧
    (IsName h.toList → endsInNumber h = false) := by
  have hchars : '[' ∉ h.toList ∧ '*' ∉ h.toList ∧ lower h = h := by
    have hspec : ∀ c ∈ h.toList, hostChar c = true := by
      obtain ⟨-, -, ⟨hname, -⟩ | ⟨hv6, -⟩⟩ := hs
      · exact hname.chars
      · exact hv6.chars
    refine ⟨fun hmem => (hostChar_spec (hspec _ hmem)).2.2.1 rfl,
      fun hmem => (hostChar_spec (hspec _ hmem)).2.2.2.2 rfl, ?_⟩
    have hmap : h.toList.map lowerChar = h.toList :=
      (map_congr_left fun c hc =>
        lowerChar_of_not_isUpper (hostChar_spec (hspec c hc)).2.1).trans (map_id _)
    rw [lower, hmap, String.ofList_toList]
  have hseen := stripPort_matcher hchars.1 hchars.2.2
  refine ⟨requestHost_eq ha hs, hseen, fun r hr => ?_, fun hname => ?_⟩
  · simp only [Matcher.matches, any_cons, any_nil, Bool.or_false, hr]
    rw [nameMatches_iff hchars.2.2 hchars.2.1, hseen]
  rw [endsInNumber, rsplitOnce_eq_none hname.noColon]
  rfl

end HostRoutes

namespace Plain
open HostRoutes

/-- `Host` of `::1` does not match a request for `[::1]:443`: the matcher sees `:`. -/
theorem loopback_not_seen : Spells "::1".toList "[::1]:443".toList ∧
    requestHost (some "[::1]:443") [] = some "::1" ∧ Matcher.stripPort "::1" = ":" ∧
    (Matcher.host ["::1"] : Matcher Empty).matches
      ⟨"::1", "/", "", "GET", [], .v4 0x7F000001#32⟩ = false := by
  refine ⟨⟨":443".toList, .inr ⟨"443".toList, rfl, all_eq_true.mp (by decide)⟩,
    .inr ⟨⟨all_eq_true.mp (by decide), by decide, by decide⟩, rfl⟩⟩,
    by decide +kernel, by decide +kernel, ?_⟩
  have hmatch : nameMatches "::1" (Text.lower (Matcher.stripPort "::1")) = false := by
    decide +kernel
  simp [Matcher.matches, hmatch]

theorem dotted_name_seen : requestHost (some "EXAMPLE.com.:8443") [] = some "example.com" ∧
    (Matcher.host ["example.com"] : Matcher Empty).matches
      ⟨"example.com", "/", "", "GET", [], .v4 0x7F000001#32⟩ = true := by
  have hname : IsName "example.com".toList :=
    ⟨all_eq_true.mp (by decide), by decide, by decide, by decide⟩
  obtain ⟨hhost, -, hmatch, hnumber⟩ := @host_seen_iff Empty _ "example.com"
    (some "EXAMPLE.com.:8443") [] "EXAMPLE.com.:8443" (.inl rfl)
    ⟨":8443".toList, .inr ⟨"8443".toList, rfl, all_eq_true.mp (by decide)⟩,
      .inl ⟨hname, .inr (by decide +kernel)⟩⟩
  exact ⟨hhost, (hmatch _ rfl).mpr (hnumber hname)⟩

end Plain
end Rproxy
