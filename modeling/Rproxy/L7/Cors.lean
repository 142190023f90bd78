import Rproxy.L7.ClientHeaders

/-!
# CORS headers

`Cors` answers preflights and puts the CORS headers on the other responses. It takes a response
with `Access-Control-Allow-Methods` and `Access-Control-Allow-Origin` for its own preflight answer,
also where a backend sent both.
-/

namespace Rproxy
open List HeaderMap Text

structure CorsFilterSpec where
  allowOrigins : List String
  allowMethods : List String
  allowHeaders : List String
  exposeHeaders : List String
  allowCredentials : Bool
  maxAge : Option ℕ

structure Cors where
  spec : CorsFilterSpec
  anyOrigin : Bool
  anyMethod : Bool
  anyHeader : Bool

namespace Cors

def vary : HeaderName := ⟨"vary"⟩

def allowOriginName : HeaderName := ⟨"access-control-allow-origin"⟩

def allowMethodsName : HeaderName := ⟨"access-control-allow-methods"⟩

def allowHeadersName : HeaderName := ⟨"access-control-allow-headers"⟩

def allowCredentialsName : HeaderName := ⟨"access-control-allow-credentials"⟩

def exposeHeadersName : HeaderName := ⟨"access-control-expose-headers"⟩

def maxAgeName : HeaderName := ⟨"access-control-max-age"⟩

def originText : HeaderValue := .ofText "Origin".toList (all_eq_true.mp (by decide))

def trueText : HeaderValue := .ofText "true".toList (all_eq_true.mp (by decide))

def anyText : HeaderValue := .ofText "*".toList (all_eq_true.mp (by decide))

/-- `Cors::new`, for a spec that validates. -/
def new (spec : CorsFilterSpec) : Cors :=
  ⟨spec, spec.allowOrigins.contains "*", spec.allowMethods.contains "*",
    spec.allowHeaders.contains "*"⟩

def originMatches (pattern origin : String) : Bool :=
  let p := lower pattern
  let o := lower origin
  match splitOnce '*' p with
  | none => p = o
  | some (front, back) =>
    byteLen front + byteLen back < byteLen o &&
      front.toList.isPrefixOf o.toList && back.toList.isSuffixOf o.toList

/-- The private `insert`: a text that is no header value is left out. -/
def insertText (headers : HeaderMap) (name : HeaderName) (text : String) : HeaderMap :=
  let bytes := text.toList.flatMap String.utf8EncodeChar
  if h : ∀ b ∈ bytes, HeaderValue.validByte b = true then headers.insert name ⟨bytes, h⟩
  else headers

def namesOrigin (v : HeaderValue) : Bool :=
  v.toStr.any fun s => (Text.splitOn ',' s).any fun t => lower (trim t) = "origin"

def varyOrigin (headers : HeaderMap) : HeaderMap :=
  if (headers.getAll vary).any namesOrigin then headers else headers ++ [(vary, originText)]

variable (c : Cors) (origin : Option HeaderValue)

def allowOrigin (credentials : Bool) : Option HeaderValue := do
  let origin ← origin
  let o ← origin.toStr
  if c.anyOrigin then
    return if c.spec.allowCredentials || credentials then origin else anyText
  else if c.spec.allowOrigins.any (originMatches · o) then return origin
  else none

def common (headers : HeaderMap) (allow : HeaderValue) : HeaderMap :=
  let headers := headers.insert allowOriginName allow
  let headers :=
    if c.spec.allowCredentials then headers.insert allowCredentialsName trueText
    else headers.remove allowCredentialsName
  let headers :=
    if c.spec.exposeHeaders = [] then headers
    else insertText headers exposeHeadersName (", ".intercalate c.spec.exposeHeaders)
  varyOrigin headers

/-- The headers of the answer to a preflight, from what the request gives in
`Access-Control-Request-Method` and `Access-Control-Request-Headers`. -/
def onRequest (options : Bool) (requested wanted origin : Option HeaderValue) :
    Option HeaderMap := do
  if options = false ∨ origin = none then none
  else
    let requested ← requested
    match c.allowOrigin origin false with
    | none => return [(vary, originText)]
    | some allow =>
      let h := c.common [] allow
      let h :=
        if c.anyMethod then
          h.insert allowMethodsName (if c.spec.allowCredentials then requested else anyText)
        else if c.spec.allowMethods = [] then h
        else insertText h allowMethodsName (", ".intercalate c.spec.allowMethods)
      let h :=
        if c.anyHeader then
          match c.spec.allowCredentials, wanted with
          | true, some v => h.insert allowHeadersName v
          | true, none => h
          | false, _ => h.insert allowHeadersName anyText
        else if c.spec.allowHeaders = [] then h
        else insertText h allowHeadersName (", ".intercalate c.spec.allowHeaders)
      return match c.spec.maxAge with
        | some age => h.insert maxAgeName (.ofNat age)
        | none => h

def onResponse (headers : HeaderMap) (origin : Option HeaderValue) (credentials : Bool) :
    HeaderMap :=
  if headers.containsKey allowMethodsName && headers.containsKey allowOriginName then headers
  else
    match c.allowOrigin origin credentials with
    | some allow => c.common headers allow
    | none => varyOrigin headers

/-! ## Who decides -/

/-- The rule has decided what the headers say of this origin. -/
def Decides (credentials : Bool) (headers : HeaderMap) : Prop :=
  (∃ v ∈ headers.getAll vary, namesOrigin v = true) ∧
    ∀ v, c.allowOrigin origin credentials = some v → headers.getAll allowOriginName = [v] ∧
      headers.getAll allowCredentialsName = if c.spec.allowCredentials then [trueText] else []

variable {headers : HeaderMap} {name other : HeaderName}

lemma getAll_insert_self (headers : HeaderMap) (name : HeaderName) (v : HeaderValue) :
    (headers.insert name v).getAll name = [v] := by
  rw [HeaderMap.insert, HeaderMap.getAll_append, HeaderMap.getAll_remove_self]
  simp [HeaderMap.getAll]

lemma getAll_insert (h : other ≠ name) (v : HeaderValue) :
    (headers.insert other v).getAll name = headers.getAll name := by
  rw [HeaderMap.insert, HeaderMap.getAll_append, HeaderMap.getAll_remove h]
  simp [HeaderMap.getAll, h]

lemma getAll_insertText (h : other ≠ name) (text : String) :
    (insertText headers other text).getAll name = headers.getAll name := by
  unfold insertText
  dsimp only
  split_ifs
  · exact getAll_insert h _
  · rfl

lemma getAll_varyOrigin (h : name ≠ vary) :
    (varyOrigin headers).getAll name = headers.getAll name := by
  rw [varyOrigin]
  split_ifs
  · rfl
  simp [getAll, h.symm]

lemma varies_varyOrigin (headers : HeaderMap) :
    ∃ v ∈ (varyOrigin headers).getAll vary, namesOrigin v = true := by
  rw [varyOrigin]
  split_ifs with h
  · exact any_eq_true.mp h
  refine ⟨originText, ?_, by decide +kernel⟩
  simp [getAll]

lemma decides_common (c : Cors) {origin : Option HeaderValue} {credentials : Bool}
    {allow : HeaderValue} (h : c.allowOrigin origin credentials = some allow) :
    Decides c origin credentials (c.common headers allow) := by
  refine ⟨varies_varyOrigin _, fun v hv => ?_⟩
  cases h.symm.trans hv
  -- the lines of a name that neither `Vary` nor the exposed headers are written under
  have hrest : ∀ {name : HeaderName} (headers : HeaderMap), name ≠ vary →
      exposeHeadersName ≠ name →
      (varyOrigin (if c.spec.exposeHeaders = [] then headers else insertText headers
        exposeHeadersName (", ".intercalate c.spec.exposeHeaders))).getAll name =
      headers.getAll name := by
    intro name headers hvary hexpose
    rw [getAll_varyOrigin hvary]
    split_ifs
    · rfl
    · exact getAll_insertText hexpose _
  constructor
  · rw [common, hrest _ (by decide) (by decide)]
    split_ifs
    · rw [getAll_insert (by decide), getAll_insert_self]
    · rw [getAll_remove (by decide), getAll_insert_self]
  rw [common, hrest _ (by decide) (by decide)]
  split_ifs
  · exact getAll_insert_self _ _ _
  · exact getAll_remove_self _ _

/-- **The rule decides, unless the backend's answer looks like a preflight's.** After `on_response`
the response varies by `Origin` and has the rule's headers iff it did not come with both
`Access-Control-Allow-Methods` and `Access-Control-Allow-Origin`, or had them already. -/
theorem decides_onResponse_iff (c : Cors) (headers : HeaderMap) (origin : Option HeaderValue)
    (credentials : Bool) :
    Decides c origin credentials (c.onResponse headers origin credentials) ↔
      ((headers.containsKey allowMethodsName && headers.containsKey allowOriginName) = false ∨
        Decides c origin credentials headers) := by
  rw [onResponse]
  split_ifs with hboth
  · exact ⟨.inr, fun h => h.resolve_left fun hnot => by rw [hnot] at hboth; cases hboth⟩
  refine ⟨fun _ => .inl (Bool.eq_false_iff.mpr hboth), fun _ => ?_⟩
  cases hallow : c.allowOrigin origin credentials with
  | some allow => exact c.decides_common hallow
  | none => exact ⟨varies_varyOrigin _, fun v hv => by cases hallow.symm.trans hv⟩

def shop : HeaderValue := .ofText "https://shop".toList (all_eq_true.mp (by decide))

def evil : HeaderValue := .ofText "https://evil".toList (all_eq_true.mp (by decide))

def shopCors : Cors := new ⟨["https://shop"], [], [], [], false, none⟩

/-- A backend allows another site with credentials, and the rule lets it. -/
theorem backend_decides : shopCors.onRequest false none none (some shop) = none ∧
      ∃ v, shopCors.allowOrigin (some shop) false = some v ∧
        let sent : HeaderMap := [(allowMethodsName, anyText), (allowOriginName, evil),
          (allowCredentialsName, trueText)]
        (shopCors.onResponse sent (some shop) false).getAll allowOriginName ≠ [v] ∧
          (shopCors.onResponse sent (some shop) false).getAll allowCredentialsName = [trueText] ∧
          (shopCors.onResponse sent (some shop) false).getAll vary = [] :=
  ⟨by decide +kernel, shop, by decide +kernel⟩

end Cors
end Rproxy
