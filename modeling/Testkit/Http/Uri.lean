/-! Request targets: a path with a query, an authority, both under a scheme, or a lone asterisk. -/

namespace Testkit

inductive UriError where
  | empty
  | tooLong
  | badCharacter
  | badAuthority
  | badFormat
  | schemeTooLong
deriving DecidableEq, Repr

def UriError.message : UriError → String
  | .empty => "empty string"
  | .tooLong => "uri too long"
  | .badCharacter => "invalid uri character"
  | .badAuthority => "invalid authority"
  | .badFormat => "invalid format"
  | .schemeTooLong => "scheme too long"

structure Uri where
  scheme : Option String := none
  authority : Option String := none
  /-- Empty only where there is nothing but an authority. -/
  path : String
  query : Option String := none
deriving DecidableEq, Repr, Inhabited

namespace Uri

def text (u : Uri) : String :=
  u.scheme.elim "" (· ++ "://") ++ u.authority.getD "" ++ u.path ++ u.query.elim "" ("?" ++ ·)

def isPathChar (c : Char) : Bool :=
  0x80 ≤ c.toNat || c.isAlphanum || "!\"$%&'()*+,-./:;=@[\\]^_\x7b|\x7d~".toList.contains c

def isQueryChar (c : Char) : Bool :=
  0x80 ≤ c.toNat || c.isAlphanum || "!$%&'()*+,-./:;=?@[\\]^_`\x7b|\x7d~".toList.contains c

def isAuthorityChar (c : Char) : Bool := c.isAlphanum || "!$&'()*+,-.:;=@[]_~".toList.contains c

def isSchemeChar (c : Char) : Bool := c.isAlphanum || "+-.~".toList.contains c

def isDelimiter (c : Char) : Bool := c = '/' || c = '?' || c = '#'

def pathAndQuery (cs : List Char) : Except UriError (List Char × Option (List Char)) :=
  let path := cs.takeWhile fun c => c ≠ '?' ∧ c ≠ '#'
  if path.all isPathChar then
    match cs.dropWhile fun c => c ≠ '?' ∧ c ≠ '#' with
    | '?' :: rest =>
      let query := rest.takeWhile (· ≠ '#')
      if query.all isQueryChar then .ok (path, some query) else .error .badCharacter
    | _ => .ok (path, none)
  else .error .badCharacter

/-- What matters about an authority while it is read from left to right. -/
structure AuthorityScan where
  colons : Nat := 0
  opened : Bool := false
  closed : Bool := false
  percent : Bool := false
  /-- The last character was an at sign. -/
  afterAt : Bool := false

namespace AuthorityScan

def maxColons : Nat := 8

/-- An at sign ends the user's part and a bracket a numeric address; what was counted before them
does not belong to host and port. -/
def step (s : AuthorityScan) (c : Char) : Except UriError AuthorityScan :=
  let s' := { s with afterAt := c = '@' }
  if c = ':' then
    if maxColons ≤ s.colons then .error .badAuthority else .ok { s' with colons := s.colons + 1 }
  else if c = '[' then
    if s.percent || s.opened then .error .badAuthority else .ok { s' with opened := true }
  else if c = ']' then
    if !s.opened || s.closed then .error .badAuthority
    else .ok { s' with closed := true, colons := 0, percent := false }
  else if c = '@' then .ok { s' with colons := 0, percent := false }
  else if c = '%' then .ok { s' with percent := true }
  else if isAuthorityChar c then .ok s'
  else .error .badCharacter

def accepts (s : AuthorityScan) : Bool :=
  s.opened = s.closed && s.colons ≤ 1 && !s.afterAt && !s.percent

end AuthorityScan

def splitAuthority (cs : List Char) : Except UriError (List Char × List Char) := do
  let front := cs.takeWhile (!isDelimiter ·)
  let scan ← front.foldlM AuthorityScan.step {}
  if scan.accepts then return (front, cs.dropWhile (!isDelimiter ·)) else .error .badAuthority

/-- The scheme, if there is one, and what comes after it. The usual schemes are written in small
letters whatever they came in. -/
def splitScheme (cs : List Char) : Except UriError (Option (List Char) × List Char) :=
  let front := cs.takeWhile isSchemeChar
  match cs.dropWhile isSchemeChar with
  | ':' :: '/' :: '/' :: rest =>
    let lower := front.map Char.toLower
    if lower = "http".toList ∨ lower = "https".toList then .ok (some lower, rest)
    else if 64 < front.length then .error .schemeTooLong
    else .ok (some front, rest)
  | _ => .ok (none, cs)

def maxLength : Nat := 65534

def ofParts (scheme authority : Option (List Char)) (path : List Char)
    (query : Option (List Char)) : Uri :=
  ⟨scheme.map String.ofList, authority.map String.ofList, String.ofList path,
    query.map String.ofList⟩

/-- Without a scheme, for which three characters are too few, all of it is an authority. What goes
on after the authority makes it no target at all. -/
def parseOther (cs : List Char) : Except UriError Uri := do
  let (scheme, rest) ← if cs.length ≤ 3 then pure (none, cs) else splitScheme cs
  if rest.isEmpty then .error .empty
  let (authority, rest) ← splitAuthority rest
  match scheme with
  | none =>
    if rest.isEmpty then return ofParts none (some authority) [] none
    else .error (if cs.length = 1 then .badCharacter else .badFormat)
  | some scheme =>
    if authority.isEmpty then .error .badFormat
    else
      let (path, query) ← pathAndQuery rest
      return ofParts (some scheme) (some authority) (if path.isEmpty then ['/'] else path) query

def parse (s : String) : Except UriError Uri :=
  if maxLength < s.utf8ByteSize then .error .tooLong
  else
    match s.toList with
    | [] => .error .empty
    | ['*'] => .ok ⟨none, none, "*", none⟩
    | '/' :: rest => do
      let (path, query) ← pathAndQuery ('/' :: rest)
      return ofParts none none path query
    | cs => parseOther cs

end Uri

end Testkit
