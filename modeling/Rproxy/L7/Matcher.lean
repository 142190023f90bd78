import Rproxy.Tls.Names

/-!
# `match` expressions of routes

The matchers of a route, their text form and its parser.
-/

namespace Rproxy

open Text

/-- `regex::Regex`: what compiles, and what an expression matches. -/
class RegexLike (Regex : Type) where
  new : String → Except String Regex
  isMatch : Regex → String → Bool

inductive Matcher (Regex : Type) where
  | and (a b : Matcher Regex)
  | or (a b : Matcher Regex)
  | not (a : Matcher Regex)
  | host (hosts : List String)
  | hostRegexp (re : Regex)
  | path (paths : List String)
  | pathPrefix (prefixes : List String)
  | pathRegexp (re : Regex)
  | method (methods : List String)
  | header (name value : String)
  | headerRegexp (name : String) (re : Regex)
  | query (key : String) (value : Option String)
  | queryRegexp (key : String) (re : Regex)
  | clientIp (cidrs : List Cidr)
deriving DecidableEq

namespace Matcher

structure RequestInfo where
  host : String
  path : String
  query : String
  method : String
  headers : List (String × String)
  client : IpAddr

def stripPort (host : String) : String :=
  if startsWith "[" host then
    ((splitOn ']' host).head?.map (trimStartMatches "[")).getD host
  else
    match rsplitOnce ':' host with
    | some (h, port) => if port.toList.all Char.isDigit then h else host
    | none => host

def queryPairs (query : String) : List (String × String) :=
  ((splitOn '&' query).filter (· != "")).map fun kv =>
    (splitOnce '=' kv).getD (kv, "")

variable {Regex : Type} [RegexLike Regex]

open RegexLike

def «matches» (r : RequestInfo) : Matcher Regex → Bool
  | and a b => a.matches r && b.matches r
  | or a b => a.matches r || b.matches r
  | not a => !a.matches r
  | host hosts => hosts.any fun h => Names.nameMatches h (lower (stripPort r.host))
  | hostRegexp re => isMatch re (lower (stripPort r.host))
  | path paths => paths.contains r.path
  | pathPrefix prefixes => prefixes.any fun p => startsWith p r.path
  | pathRegexp re => isMatch re r.path
  | method methods => methods.contains r.method
  | header name value => r.headers.any fun (n, v) => n == name && v == value
  | headerRegexp name re => r.headers.any fun (n, v) => n == name && isMatch re v
  | query key value => (queryPairs r.query).any fun (k, v) =>
      k == key && value.all fun want => v == want
  | queryRegexp key re => (queryPairs r.query).any fun (k, v) =>
      k == key && isMatch re v
  | clientIp cidrs => cidrs.any fun c => c.contains r.client

/-! ## Tokens -/

abbrev ParseError := String

inductive Token where
  | ident (s : String)
  | str (s : String)
  | lparen
  | rparen
  | comma
  | and
  | or
  | not
deriving DecidableEq

/-- What `tokenize` is in the middle of: nothing, an operator whose second character comes next, a
quoted text, or a name. -/
inductive Mode where
  | plain
  | operator (c : Char) (i : ℕ)
  | quoted (c : Char) (i : ℕ) (s : List Char)
  | ident (s : List Char)

def startToken (c : Char) (i : ℕ) : Except ParseError (List Token × Mode) :=
  if isWhitespace c then .ok ([], .plain)
  else if c = '(' then .ok ([.lparen], .plain)
  else if c = ')' then .ok ([.rparen], .plain)
  else if c = ',' then .ok ([.comma], .plain)
  else if c = '!' then .ok ([.not], .plain)
  else if c = '&' ∨ c = '|' then .ok ([], .operator c i)
  -- a backquote or a double quote
  else if c = '\x60' ∨ c = '\x22' then .ok ([], .quoted c i [])
  else if c.isAlpha then .ok ([], .ident [c])
  else .error s!"unexpected '{c}' at {i}"

def tokenizeFrom : Mode → ℕ → List Char → Except ParseError (List Token)
  | .plain, _, [] => .ok []
  | .operator c start, _, [] => .error s!"expected {c}{c} at {start}"
  | .quoted _ start _, _, [] => .error s!"unterminated string starting at {start}"
  | .ident s, _, [] => .ok [.ident (String.ofList s)]
  | mode, i, c :: rest => do
    let (out, mode) ← match mode with
      | .plain => startToken c i
      | .operator o start =>
        if c = o then .ok ([if o = '&' then Token.and else .or], .plain)
        else .error s!"expected {o}{o} at {start}"
      | .quoted q start s =>
        if c = q then .ok ([.str (String.ofList s)], .plain)
        else .ok ([], .quoted q start (s ++ [c]))
      | .ident s =>
        if isAlphanumeric c then .ok ([], .ident (s ++ [c]))
        else (startToken c i).map fun (out, mode) => (.ident (String.ofList s) :: out, mode)
    let more ← tokenizeFrom mode (i + c.utf8Size) rest
    return out ++ more

def tokenize (src : String) : Except ParseError (List Token) :=
  tokenizeFrom .plain 0 src.toList

def fmtRange (lo : ℕ) : Option ℕ → String
  | none => s!"{lo} or more"
  | some hi => if lo = hi then s!"{lo}" else s!"{lo} to {hi}"

def regex (name pattern : String) : Except ParseError Regex :=
  (new pattern).mapError fun e => s!"{name}: {e}"

section
variable [External]

def build (name : String) (args : List String) : Except ParseError (Matcher Regex) := do
  let count (lo : ℕ) (hi : Option ℕ) : Except ParseError Unit :=
    Checks.refuseIf (args.length < lo ∨ hi.any (· < args.length))
      s!"{name} takes {fmtRange lo hi} argument(s), got {args.length}"
  let arg (i : ℕ) := args.getD i ""
  match name with
  | "Host" => do
    count 1 none
    return .host (args.map lower)
  | "HostRegexp" => do
    count 1 (some 1)
    return .hostRegexp (← regex name (arg 0))
  | "Path" => do
    count 1 none
    checkPaths name args
    return .path args
  | "PathPrefix" => do
    count 1 none
    checkPaths name args
    return .pathPrefix args
  | "PathRegexp" => do
    count 1 (some 1)
    return .pathRegexp (← regex name (arg 0))
  | "Method" => do
    count 1 none
    return .method (args.map String.toUpper)
  | "Header" => do
    count 2 (some 2)
    return .header (lower (arg 0)) (arg 1)
  | "HeaderRegexp" => do
    count 2 (some 2)
    return .headerRegexp (lower (arg 0)) (← regex name (arg 1))
  | "Query" => do
    count 1 (some 2)
    return .query (arg 0) args[1]?
  | "QueryRegexp" => do
    count 2 (some 2)
    return .queryRegexp (arg 0) (← regex name (arg 1))
  | "ClientIP" => do
    count 1 none
    return .clientIp (← Checks.collect (fun c =>
      (Cidr.fromStr c).mapError fun e => s!"ClientIP: {e.message}") args)
  | other => throw s!"unknown matcher {other}"
where
  checkPaths (name : String) (args : List String) : Except ParseError Unit :=
    match args.find? fun p => !Text.startsWith "/" p with
    | some p => .error s!"{name}: {debugStr p} must start with /"
    | none => .ok ()

/-! ## The parser -/

def maxDepth : ℕ := 32

def maxTerms : ℕ := 256

def debugToken : Token → String
  | .ident s => s!"Ident({debugStr s})"
  | .str s => s!"Str({debugStr s})"
  | .lparen => "LParen"
  | .rparen => "RParen"
  | .comma => "Comma"
  | .and => "And"
  | .or => "Or"
  | .not => "Not"

def debug : Option Token → String
  | none => "None"
  | some t => s!"Some({debugToken t})"

def arguments (name : String) (args : List String) :
    List Token → Except ParseError (List String × List Token)
  | .str s :: .comma :: rest => arguments name (args ++ [s]) rest
  | .str s :: .rparen :: rest => .ok (args ++ [s], rest)
  | .str _ :: rest => .error s!"{name}: expected , or ), got {debug rest.head?}"
  | .rparen :: rest =>
    if args = [] then .ok ([], rest)
    else .error s!"{name}: expected a quoted argument, got {debug (some .rparen)}"
  | rest => .error s!"{name}: expected a quoted argument, got {debug rest.head?}"

def call (name : String) : List Token → Except ParseError (Matcher Regex × List Token)
  | .lparen :: rest => do
    let (args, rest) ← arguments name [] rest
    return (← build name args, rest)
  | _ => .error s!"expected ( after {name}"

structure Parser where
  tokens : List Token
  terms : ℕ

abbrev Rule (Regex : Type) := Parser → Except ParseError (Matcher Regex × Parser)

def chain (op : Token) (node : Matcher Regex → Matcher Regex → Matcher Regex)
    (operand : Rule Regex) : ℕ → Matcher Regex → Rule Regex
  | 0, left, p => .ok (left, p)
  | n + 1, left, p =>
    if p.tokens.head? = some op then do
      let (right, q) ← operand { p with tokens := p.tokens.tail }
      chain op node operand n (node left right) q
    else .ok (left, p)

def level (op : Token) (node : Matcher Regex → Matcher Regex → Matcher Regex)
    (operand : Rule Regex) : Rule Regex := fun p => do
  let (left, q) ← operand p
  chain op node operand q.tokens.length left q

def unary : ℕ → Rule Regex := fun room p =>
  match p.tokens, room with
  | .not :: rest, room + 1 => do
    let (m, q) ← unary room { p with tokens := rest }
    return (.not m, q)
  | .lparen :: rest, room + 1 => do
    let (m, q) ← level .or .or (level .and .and (unary room)) { p with tokens := rest }
    match q.tokens with
    | .rparen :: rest => .ok (m, { q with tokens := rest })
    | _ => .error "expected )"
  | .ident name :: rest, _ =>
    if p.terms + 1 > maxTerms then
      .error s!"more than {maxTerms} matchers in one expression"
    else do
      let (m, rest) ← call name rest
      return (m, ⟨rest, p.terms + 1⟩)
  | .not :: _, 0 => .error s!"parentheses and ! nested deeper than {maxDepth} levels"
  | .lparen :: _, 0 => .error s!"parentheses and ! nested deeper than {maxDepth} levels"
  | other, _ => .error s!"expected a matcher, got {debug other.head?}"

def parse (src : String) : Except ParseError (Matcher Regex) := do
  let tokens ← tokenize src
  if tokens = [] then .error "empty match"
  else do
    let (m, p) ← level .or .or (level .and .and (unary maxDepth)) ⟨tokens, 0⟩
    match p.tokens with
    | [] => .ok m
    | t :: _ => .error s!"unexpected {debugToken t} after the expression"

end
end Matcher

namespace Plain

scoped instance : RegexLike Empty where
  new _ := .error "no regular expressions"
  isMatch := nofun

end Plain
end Rproxy
