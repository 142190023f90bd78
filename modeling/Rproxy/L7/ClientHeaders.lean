import Rproxy.Data.Split
import Rproxy.L7.Header

/-!
# Headers a client must not decide

Before routing, `Conn::handle` takes out the headers that the rule's middlewares set after
authenticating (`strip_identity`) and those that the client lists in `Connection`, so that
`strip_hop_by_hop` cannot later remove what a middleware set.
-/

namespace Rproxy
open List HeaderName HeaderValue Text
namespace HeaderMap
variable {m : HeaderMap}

lemma mem_foldl_remove {names : List HeaderName} {line : HeaderName × HeaderValue} :
    line ∈ names.foldl remove m ↔ line ∈ m ∧ line.1 ∉ names := by
  induction names generalizing m with
  | nil => simp
  | cons name names ih =>
    rw [foldl_cons, ih]
    simp only [remove, mem_filter, decide_eq_true_eq, mem_cons, not_or, and_assoc]

lemma getAll_remove {name other : HeaderName} (h : other ≠ name) :
    (m.remove other).getAll name = m.getAll name := by
  rw [getAll, remove, filterMap_filter]
  refine filterMap_congr fun line _ => ?_
  by_cases hline : line.1 = name
  · simp [hline, h.symm]
  · simp [hline]

lemma getAll_remove_self (m : HeaderMap) (name : HeaderName) :
    (m.remove name).getAll name = [] := by
  rw [getAll, filterMap_eq_nil_iff]
  intro line hline
  simp only [remove, mem_filter, decide_eq_true_eq] at hline
  simp [hline.2]

lemma getAll_foldl_remove (m : HeaderMap) (names : List HeaderName) (name : HeaderName) :
    (names.foldl remove m).getAll name = if name ∈ names then [] else m.getAll name := by
  induction names generalizing m with
  | nil => rfl
  | cons other names ih =>
    rw [foldl_cons, ih]
    by_cases h : other = name
    · rw [h, getAll_remove_self, ite_self, if_pos mem_cons_self]
    · rw [getAll_remove h]
      simp only [mem_cons, Ne.symm h, false_or]

lemma getAll_of_containsKey {name : HeaderName} (h : m.containsKey name = false) :
    m.getAll name = [] := by
  rw [getAll, filterMap_eq_nil_iff]
  intro line hline
  have hname := any_eq_false.mp h line hline
  simpa using hname

lemma getAll_append (a b : HeaderMap) (name : HeaderName) :
    getAll (a ++ b) name = getAll a name ++ getAll b name :=
  filterMap_append

end HeaderMap

namespace ClientHeaders

/-! ## Identities -/

inductive Middleware where
  | basicAuth (userHeader : Option HeaderName)
  | oidc
  | forwardAuth (grpc allResponseHeaders : Bool) (responseHeaders : List HeaderName)
  | other

def oidcIdentity : List String :=
  ["x-forwarded-user", "x-forwarded-email", "x-forwarded-groups", "x-forwarded-sub"]

def knownIdentity : List String :=
  ["x-forwarded-user", "x-forwarded-email", "x-forwarded-groups", "x-forwarded-sub",
   "x-forwarded-preferred-username", "x-auth-request-user", "x-auth-request-email",
   "x-auth-request-groups", "x-auth-request-preferred-username", "x-auth-request-access-token",
   "remote-user", "remote-email", "remote-groups", "remote-name", "x-authentik-username",
   "x-authentik-groups", "x-authentik-email", "x-authentik-name", "x-authentik-uid",
   "x-authentik-jwt"]

def Middleware.identity : Middleware → List HeaderName
  | basicAuth userHeader => userHeader.toList
  | oidc => oidcIdentity.map HeaderName.mk
  | forwardAuth grpc all responseHeaders =>
    (if grpc || all then knownIdentity.map HeaderName.mk else []) ++ responseHeaders
  | other => []

def kept : List HeaderName :=
  [⟨"authorization"⟩, ⟨"proxy-authorization"⟩, ⟨"cookie"⟩, ⟨"host"⟩]

variable (h : HeaderName) (middlewares : List Middleware)

def identityHeaders : List HeaderName :=
  ((middlewares.flatMap Middleware.identity).foldl
    (fun out h => if h ∈ out then out else out ++ [h]) []).filter fun h => h ∉ kept

def dashed : HeaderName :=
  ⟨String.ofList (h.text.toList.map fun c => if c = '_' then '-' else c)⟩

def hasUnderscore : Bool :=
  h.text.toList.contains '_'

open HeaderMap

def stripIdentity (headers : HeaderMap) (identity : List HeaderName) : HeaderMap :=
  if identity = [] then headers
  else
    let headers := identity.foldl remove headers
    if headers.any (fun line => hasUnderscore line.1) = false then headers
    else
      let alike := (headers.map Prod.fst).filter fun k =>
        hasUnderscore k && identity.any fun h => h = dashed k
      alike.foldl remove headers

lemma dashed_of_not_hasUnderscore {h : HeaderName} (hno : hasUnderscore h = false) :
    dashed h = h := by
  have hmap : h.text.toList.map (fun c => if c = '_' then '-' else c) = h.text.toList := by
    refine (map_congr_left fun c hc => ?_).trans (map_id _)
    rw [if_neg]
    · rfl
    rintro rfl
    simp [hasUnderscore, hc] at hno
  rw [dashed, hmap, String.ofList_toList]

lemma dashed_dashed : dashed (dashed h) = dashed h := by
  refine dashed_of_not_hasUnderscore ?_
  simp only [hasUnderscore, dashed, String.toList_ofList, contains_eq_mem,
    decide_eq_false_iff_not, mem_map, not_exists, not_and]
  intro c _
  split <;> simp_all

variable {headers : HeaderMap}

/-- **What `strip_identity` leaves**: the lines whose names are no identities, as they are or with
`_` read as `-`. -/
theorem mem_stripIdentity {identity : List HeaderName} {line : HeaderName × HeaderValue} :
    line ∈ stripIdentity headers identity ↔
      line ∈ headers ∧ line.1 ∉ identity ∧ dashed line.1 ∉ identity := by
  unfold stripIdentity
  split
  next h => simp [h]
  simp only []
  split
  next hnone =>
    rw [mem_foldl_remove]
    refine ⟨fun h => ⟨h.1, h.2, ?_⟩, fun h => ⟨h.1, h.2.1⟩⟩
    rw [any_eq_false] at hnone
    have hno := hnone line (mem_foldl_remove.mpr h)
    rw [dashed_of_not_hasUnderscore (by simpa using hno)]
    exact h.2
  rw [mem_foldl_remove, mem_foldl_remove, and_assoc]
  refine and_congr_right fun hline => and_congr_right fun hname => ?_
  simp only [mem_filter, mem_map, Bool.and_eq_true, any_eq_true,
    decide_eq_true_eq, exists_eq_right, not_and]
  constructor
  · intro hnot hdashed
    by_cases hu : hasUnderscore line.1
    · exact hnot ⟨line, mem_foldl_remove.mpr ⟨hline, hname⟩, rfl⟩ hu hdashed
    rw [dashed_of_not_hasUnderscore (by simpa using hu)] at hdashed
    exact hname hdashed
  · exact fun hnot _ _ => hnot

lemma getAll_stripIdentity {name : HeaderName} (h : hasUnderscore name = false)
    (headers : HeaderMap) (identity : List HeaderName) :
    (stripIdentity headers identity).getAll name =
      if name ∈ identity then [] else headers.getAll name := by
  unfold stripIdentity
  split
  next hnil => rw [hnil, if_neg not_mem_nil]
  dsimp only
  split
  · exact getAll_foldl_remove ..
  rw [getAll_foldl_remove, getAll_foldl_remove, if_neg]
  rw [mem_filter, h]
  exact fun hmem => absurd hmem.2 (by simp)

/-- No line's name is an identity of the middlewares when `_` and `-` are read as one. -/
def NoIdentity (headers : HeaderMap) : Prop :=
  ∀ line ∈ headers, ∀ h ∈ identityHeaders middlewares, dashed line.1 ≠ dashed h

/-- **When no identity is left.** In one request: exactly when every name that reads as an identity
is one, as it is or with `_` read as `-`. In every request: exactly when each identity with `_` read
as `-` is one too. -/
theorem no_identity_iff :
    (∀ headers, NoIdentity middlewares (stripIdentity headers (identityHeaders middlewares)) ↔
      ∀ line ∈ headers, ∀ h ∈ identityHeaders middlewares, dashed line.1 = dashed h →
        line.1 ∈ identityHeaders middlewares ∨ dashed line.1 ∈ identityHeaders middlewares) ∧
    ((∀ headers, NoIdentity middlewares (stripIdentity headers (identityHeaders middlewares))) ↔
      ∀ h ∈ identityHeaders middlewares, dashed h ∈ identityHeaders middlewares) := by
  have hone : ∀ headers, NoIdentity middlewares
      (stripIdentity headers (identityHeaders middlewares)) ↔
      ∀ line ∈ headers, ∀ h ∈ identityHeaders middlewares, dashed line.1 = dashed h →
        line.1 ∈ identityHeaders middlewares ∨ dashed line.1 ∈ identityHeaders middlewares := by
    intro headers
    constructor
    · intro hno line hline h hh hsame
      by_contra hleft
      rw [not_or] at hleft
      exact hno line (mem_stripIdentity.mpr ⟨hline, hleft⟩) h hh hsame
    intro hall line hline h hh hsame
    obtain ⟨hmem, hname, hdashed⟩ := mem_stripIdentity.mp hline
    exact (hall line hmem h hh hsame).elim hname hdashed
  refine ⟨hone, fun hno h hh => ?_, fun hall headers => ?_⟩
  · -- a request with the name that the identity becomes
    have hleft := (hone [(dashed h, ⟨[], nofun⟩)]).mp (hno _) _ mem_cons_self h hh (dashed_dashed h)
    rwa [dashed_dashed, or_self] at hleft
  refine (hone headers).mpr fun line _ h hh hsame => .inr ?_
  rw [hsame]
  exact hall h hh

/-- With `user_header: X_User`, a client may send `X-User` itself. -/
theorem identity_underscore :
    ¬ NoIdentity [.basicAuth (some ⟨"x_user"⟩)] (stripIdentity [(⟨"x-user"⟩, .ofNat 1)]
      (identityHeaders [.basicAuth (some ⟨"x_user"⟩)])) := by
  intro h
  exact h (⟨"x-user"⟩, .ofNat 1) (by decide +kernel) ⟨"x_user"⟩ (by decide +kernel)
    (by decide +kernel)

theorem oidc_identities_closed :
    ∀ headers, NoIdentity [.oidc] (stripIdentity headers (identityHeaders [.oidc])) :=
  (no_identity_iff [.oidc]).2.mpr (by decide +kernel)

/-! ## `Connection` -/

def connection : HeaderName := ⟨"connection"⟩
def upgrade : HeaderName := ⟨"upgrade"⟩
def host : HeaderName := ⟨"host"⟩

def hopByHop : List HeaderName :=
  [connection, ⟨"http2-settings"⟩, ⟨"keep-alive"⟩, ⟨"proxy-connection"⟩, ⟨"proxy-authenticate"⟩,
   ⟨"proxy-authorization"⟩, ⟨"te"⟩, ⟨"trailer"⟩, ⟨"transfer-encoding"⟩]

def tokens (lines : List HeaderValue) : List String :=
  ((lines.filterMap toStr).flatMap (Text.splitOn ',')).map trim

def listed (headers : HeaderMap) : List HeaderName :=
  (tokens (headers.getAll connection)).filterMap fromBytes

def stripHopByHop (headers : HeaderMap) : HeaderMap :=
  ((listed headers ++ hopByHop).foldl remove headers).remove upgrade

def fromStr (s : String) : Option HeaderValue :=
  if h : s.toList.all fun c => c.toNat < 0x80 && textByte (.ofNat c.toNat) then
    some {
      bytes := ascii s.toList
      valid := by
        intro b hb
        obtain ⟨c, hc, rfl⟩ := mem_map.mp hb
        exact validByte_of_textByte
          (Bool.and_eq_true_iff.mp (all_eq_true.mp h c hc)).2 }
  else none

def staysListed (name : HeaderName) : Bool :=
  name == upgrade || name == host || hopByHop.contains name

def keptToken (token : String) : Bool :=
  (fromBytes token).any staysListed

def dropConnectionListed (headers : HeaderMap) : HeaderMap :=
  if headers.containsKey connection = false then headers
  else
    let kept := (tokens (headers.getAll connection)).filter keptToken
    let headers := ((listed headers).filter fun name => !staysListed name).foldl remove headers
    match fromStr (String.intercalate ", " kept) with
    | some v => if kept ≠ [] then headers.insert connection v else headers.remove connection
    | none => headers.remove connection

inductive Edit where
  | insert (name : HeaderName) (v : HeaderValue)
  | append (name : HeaderName) (v : HeaderValue)
  | remove (name : HeaderName)

namespace Edit

def name : Edit → HeaderName
  | insert name _ => name
  | append name _ => name
  | remove name => name

def apply (headers : HeaderMap) : Edit → HeaderMap
  | insert name v => headers.insert name v
  | append name v => headers ++ [(name, v)]
  | remove name => headers.remove name

variable {name : HeaderName}

lemma getAll_apply {e : Edit} (h : e.name ≠ name) :
    (e.apply headers).getAll name = headers.getAll name := by
  cases e with
  | insert other v =>
    have hname : other ≠ name := h
    rw [apply, HeaderMap.insert, HeaderMap.getAll_append, HeaderMap.getAll_remove hname]
    simp [getAll, hname]
  | append other v =>
    have hname : other ≠ name := h
    rw [apply]
    simp [getAll, hname]
  | remove other => exact getAll_remove h

lemma getAll_foldl_apply {edits : List Edit} (h : ∀ e ∈ edits, e.name ≠ name) :
    (edits.foldl apply headers).getAll name = headers.getAll name := by
  induction edits generalizing headers with
  | nil => rfl
  | cons e edits ih =>
    rw [foldl_cons, ih fun f hf => h f (mem_cons_of_mem _ hf), getAll_apply (h e mem_cons_self)]

end Edit

/-! ### Tokens read back -/

variable {c : Char}

lemma toNat_lt_of_isAlphanumeric (h : isAlphanumeric c) : c.toNat < 128 := by
  simp only [isAlphanumeric, Char.isLower, Char.isUpper, Char.isDigit, Bool.or_eq_true,
    Bool.and_eq_true, decide_eq_true_eq] at h
  rcases h with (h | h) | h
  · exact lt_of_le_of_lt (show c.toNat ≤ 122 from h.2) (by decide)
  · exact lt_of_le_of_lt (show c.toNat ≤ 90 from h.2) (by decide)
  · exact lt_of_le_of_lt (show c.toNat ≤ 57 from h.2) (by decide)

lemma forall_ascii {P : Char → Prop} (h : ∀ n : Fin 128, P (Char.ofNat n))
    (hc : c.toNat < 128) : P c := by
  have hn := h ⟨c.toNat, hc⟩
  rwa [Char.ofNat_toNat] at hn

lemma nameChar_spec (h : nameChar c) :
    visible c ∧ c ≠ ',' ∧ isWhitespace c = false := by
  have hc : c.toNat < 128 := by
    rcases Bool.or_eq_true _ _ ▸ h with h | h
    · exact toNat_lt_of_isAlphanumeric h
    have hall : ("!#$%&'*+-.^_`|~".toList.all fun x => x.toNat < 128) := by decide
    rw [contains_eq_mem, decide_eq_true_eq] at h
    exact of_decide_eq_true (all_eq_true.mp hall c h)
  exact forall_ascii (P := fun c => nameChar c = true →
    visible c ∧ c ≠ ',' ∧ isWhitespace c = false) (by decide +kernel) hc h

lemma chars_of_keptToken {t : String} (h : keptToken t) :
    ∀ c ∈ t.toList, nameChar c := by
  obtain ⟨name, hname, -⟩ := (Option.any_eq_true _ _).mp h
  unfold fromBytes at hname
  split at hname
  next hok => exact all_eq_true.mp hok.2.1
  · cases hname

lemma trim_splitOn_intercalate (ts : List (List Char)) (blanks : List Char) (hne : ts ≠ [])
    (hts : ∀ t ∈ ts, ∀ c ∈ t, nameChar c) (hb : ∀ c ∈ blanks, c = ' ') :
    ((blanks ++ [',', ' '].intercalate ts).splitOn ',').map (trimMatches isWhitespace)
      = ts := by
  have hpiece : ∀ t ∈ ts, ∀ b, (∀ c ∈ b, c = ' ') → ',' ∉ b ++ t ∧
      trimMatches isWhitespace (b ++ t) = t := by
    intro t ht b hb
    have hspec := fun c hc => nameChar_spec (hts t ht c hc)
    constructor
    · intro hmem
      rcases mem_append.mp hmem with hmem | hmem
      · exact absurd (hb _ hmem) (by decide)
      · exact (hspec _ hmem).2.1 rfl
    rw [trimMatches, dropWhile_append_of_pos fun c hc => by rw [hb c hc]; rfl]
    exact trimMatches_eq_self _ fun c hc => (hspec c hc).2.2
  induction ts generalizing blanks with
  | nil => exact absurd rfl hne
  | cons t ts ih =>
    obtain ⟨hcomma, htrim⟩ := hpiece t mem_cons_self blanks hb
    cases ts with
    | nil => rw [intercalate_singleton, splitOn_eq_singleton hcomma, map_singleton,
        htrim]
    | cons u ts =>
      have hcut : blanks ++ [',', ' '].intercalate (t :: u :: ts) =
          (blanks ++ t) ++ ',' :: ([' '] ++ [',', ' '].intercalate (u :: ts)) := by
        simp [intercalate_cons_cons]
      rw [hcut, splitOn_append_cons_self, splitOn_eq_singleton hcomma, map_append,
        map_singleton, htrim, ih [' '] (by simp)
          (fun v hv => hts v (mem_cons_of_mem _ hv)) (by simp)
          fun v hv => hpiece v (mem_cons_of_mem _ hv)]
      rfl

lemma toStr_fromStr {s : String} (h : ∀ c ∈ s.toList, visible c = true) :
    ∃ v, fromStr s = some v ∧ v.toStr = some s := by
  have htext : s.toList.all fun c =>
      c.toNat < 0x80 && textByte (.ofNat c.toNat) := by
    refine all_eq_true.mpr fun c hc => ?_
    rw [textByte_ascii (h c hc), Bool.and_true, decide_eq_true_eq]
    have hvisible := h c hc
    simp only [visible, Bool.and_eq_true, decide_eq_true_eq] at hvisible
    omega
  have hread := toStr_ofText h
  rw [String.ofList_toList] at hread
  exact ⟨.ofText _ h, dif_pos htext, hread⟩

lemma tokens_of_join {ts : List String} (hne : ts ≠ [])
    (hts : ∀ t ∈ ts, ∀ c ∈ t.toList, nameChar c) :
    ∃ v, fromStr (String.intercalate ", " ts) = some v ∧ tokens [v] = ts := by
  have hlist : (String.intercalate ", " ts).toList =
      [',', ' '].intercalate (ts.map String.toList) :=
    String.toList_intercalate
  have hvisible : ∀ c ∈ (String.intercalate ", " ts).toList, visible c := by
    intro c hc
    rw [hlist] at hc
    rcases Split.mem_intercalate hc with hmem | ⟨t, ht, hmem⟩
    · simp only [mem_cons, not_mem_nil, or_false] at hmem
      rcases hmem with rfl | rfl <;> decide
    obtain ⟨s, hs, rfl⟩ := mem_map.mp ht
    exact (nameChar_spec (hts s hs c hmem)).1
  obtain ⟨v, hv, hread⟩ := toStr_fromStr hvisible
  refine ⟨v, hv, ?_⟩
  rw [tokens, filterMap_cons_some hread]
  have hsplit := trim_splitOn_intercalate (ts.map String.toList) [] (by simpa)
    (by simpa using hts) (by simp)
  rw [filterMap_nil, flatMap_singleton, splitOn_eq, hlist, map_map]
  have hcomp : trim ∘ String.ofList = String.ofList ∘ trimMatches isWhitespace := by
    funext l
    simp [trim]
  rw [hcomp, ← map_map, ← nil_append ([',', ' '].intercalate _), hsplit]
  simp

lemma tokens_dropConnectionListed (headers : HeaderMap) :
    tokens ((dropConnectionListed headers).getAll connection) =
      (tokens (headers.getAll connection)).filter keptToken := by
  unfold dropConnectionListed
  split
  next hno =>
    rw [getAll_of_containsKey hno]
    rfl
  simp only []
  by_cases hkept : (tokens (headers.getAll connection)).filter keptToken = []
  · rw [hkept]
    split <;> simp [getAll_remove_self, tokens]
  obtain ⟨v, hv, htokens⟩ := tokens_of_join hkept fun t ht =>
    chars_of_keptToken (mem_filter.mp ht).2
  rw [hv]
  simp only [ne_eq, hkept, not_false_eq_true, if_true]
  rw [HeaderMap.insert, HeaderMap.getAll_append, HeaderMap.getAll_remove_self]
  simpa [getAll] using htokens

open Edit

lemma getAll_dropConnectionListed {name : HeaderName} (hname : name ≠ connection)
    (hstays : staysListed name = false) (headers : HeaderMap) :
    (dropConnectionListed headers).getAll name =
      if name ∈ listed headers then [] else headers.getAll name := by
  unfold dropConnectionListed
  split
  next hno =>
    rw [listed, getAll_of_containsKey hno, if_neg]
    exact not_mem_nil
  have hlisted : name ∈ (listed headers).filter (fun name => !staysListed name) ↔
      name ∈ listed headers := by
    simp [hstays]
  have hrest := getAll_foldl_remove headers ((listed headers).filter (!staysListed ·)) name
  simp only [hlisted] at hrest
  rw [← hrest]
  dsimp only
  split
  · split
    · exact getAll_apply (e := .insert connection _) hname.symm
    · exact getAll_remove hname.symm
  · exact getAll_remove hname.symm

/-- **A client's `Connection` cannot remove what rproxy adds.** After `drop_connection_listed` and
changes to headers other than `Connection`, `strip_hop_by_hop` removes only those of `HOP_BY_HOP`,
`Upgrade`, and `Host` if the client listed it. -/
theorem connection_removes_nothing (headers : HeaderMap) (edits : List Edit)
    (hedits : ∀ e ∈ edits, e.name ≠ connection) (line : HeaderName × HeaderValue)
    (hline : line ∈ edits.foldl apply (dropConnectionListed headers))
    (hgone : line ∉ stripHopByHop (edits.foldl apply (dropConnectionListed headers))) :
    line.1 ∈ hopByHop ∨ line.1 = upgrade ∨ line.1 = host ∧ host ∈ listed headers := by
  have htokens : listed (edits.foldl apply (dropConnectionListed headers)) =
      ((tokens (headers.getAll connection)).filter keptToken).filterMap fromBytes := by
    rw [listed, getAll_foldl_apply hedits, tokens_dropConnectionListed]
  by_contra hother
  rw [not_or, not_or] at hother
  obtain ⟨hhop, hupgrade, hhost⟩ := hother
  refine hgone (mem_filter.mpr ⟨mem_foldl_remove.mpr ⟨hline, ?_⟩, by simpa⟩)
  rw [mem_append, not_or]
  refine ⟨fun hlisted => ?_, hhop⟩
  -- a listed name is of a token that was kept
  rw [htokens, mem_filterMap] at hlisted
  obtain ⟨t, ht, hname⟩ := hlisted
  obtain ⟨htoken, hkept⟩ := mem_filter.mp ht
  rw [keptToken, hname] at hkept
  simp only [Option.any_some, staysListed, Bool.or_eq_true, beq_iff_eq,
    contains_eq_mem, decide_eq_true_eq] at hkept
  rcases hkept with (h | h) | h
  · exact hupgrade h
  · exact hhost ⟨h, mem_filterMap.mpr ⟨t, htoken, h ▸ hname⟩⟩
  · exact hhop h

theorem listed_user_stays : ((⟨"x-user"⟩, .ofNat 7) : HeaderName × HeaderValue) ∈ stripHopByHop
      (apply (dropConnectionListed [(connection,
        .ofText "X-User, TE".toList (all_eq_true.mp (by decide)))])
        (.insert ⟨"x-user"⟩ (.ofNat 7))) := by
  by_contra hgone
  have h := connection_removes_nothing
    [(connection, .ofText "X-User, TE".toList (all_eq_true.mp (by decide)))]
      [.insert ⟨"x-user"⟩ (.ofNat 7)]
    (by simp only [mem_singleton, forall_eq]; decide) (⟨"x-user"⟩, .ofNat 7)
    (by simp [apply, HeaderMap.insert]) hgone
  revert h
  decide +kernel

end ClientHeaders
end Rproxy
