import LeadAutomation.Text

/-!
# Targets

What a request is aimed at: a path from the root with perhaps a query, or a whole URL, whose scheme
and authority are checked and then left aside. An authority on its own is a target without a path,
and an asterisk is a path of its own. A fragment is never looked at.
-/

namespace LeadAutomation.Http

structure Target where
  path : String
  /-- What follows the question mark, if there is one. -/
  query : String := ""
deriving DecidableEq, Repr

namespace Target

/-- The number of bytes that a target may have. -/
def maxSize : Nat := 65534

/-- The number of characters that a scheme may have. -/
def maxScheme : Nat := 64

/-- The number of colons in a row that an address may have, with no bracket or at sign between. -/
def maxColons : Nat := 8

def isPathChar (c : Char) : Bool :=
  ('$' ≤ c && c ≤ ';') || ('@' ≤ c && c ≤ '_') || ('a' ≤ c && c ≤ '~') || 127 ≤ c.toNat ||
    c = '!' || c = '"' || c = '='

def isQueryChar (c : Char) : Bool :=
  ('$' ≤ c && c ≤ ';') || ('?' ≤ c && c ≤ '~') || 127 ≤ c.toNat || c = '!' || c = '='

def isSchemeChar (c : Char) : Bool := c.isAlphanum || "+-.~".toList.contains c

/-- Whether a character without a role of its own can stand in an authority. -/
def isPlain (c : Char) : Bool := c.isAlphanum || "!$&'()*+,-.;=_~".toList.contains c

/-- What a reader of an authority remembers. -/
structure AuthorityState where
  /-- The colons since the last at sign or closing bracket. -/
  colons : Nat := 0
  /-- Whether a percent sign stood since then. -/
  percent : Bool := false
  opened : Bool := false
  closed : Bool := false
deriving DecidableEq, Repr

/-- The next character of an authority. An at sign ends the user, and a closing bracket an
address. -/
def AuthorityState.next? (state : AuthorityState) (c : Char) : Option AuthorityState :=
  if c = ':' then
    if state.colons < maxColons then some { state with colons := state.colons + 1 } else none
  else if c = '[' then
    if state.percent || state.opened then none else some { state with opened := true }
  else if c = ']' then
    if state.opened && !state.closed then
      some { state with closed := true, colons := 0, percent := false }
    else none
  else if c = '@' then some { state with colons := 0, percent := false }
  else if c = '%' then some { state with percent := true }
  else if isPlain c then some state
  else none

/-- Whether text is an authority: a host and perhaps a port after one colon, perhaps behind a user
and an at sign. Brackets may enclose an address once, and percent signs stand in the user or the
address only. -/
def isAuthority (cs : List Char) : Bool :=
  match cs.foldlM AuthorityState.next? {} with
  | some state =>
    state.opened == state.closed && state.colons ≤ 1 && !state.percent && cs.getLast? ≠ some '@'
  | none => false

/-- The path and the query at the end of a target; an empty path is the root. -/
def ofPathQuery? (cs : List Char) : Option Target :=
  let cs := cs.takeWhile (· ≠ '#')
  let path := cs.takeWhile (· ≠ '?')
  let query := (cs.dropWhile (· ≠ '?')).drop 1
  if path.all isPathChar && query.all isQueryChar then
    some ⟨if path.isEmpty then "/" else String.ofList path, String.ofList query⟩
  else none

/-- A whole URL after its scheme. -/
def ofHierarchy? (cs : List Char) : Option Target :=
  let isInside (c : Char) : Bool := c ≠ '/' && c ≠ '?' && c ≠ '#'
  let authority := cs.takeWhile isInside
  if !authority.isEmpty && isAuthority authority then ofPathQuery? (cs.dropWhile isInside) else none

/-- A target from its text. -/
def ofText? (s : String) : Option Target :=
  let cs := s.toList
  if cs.isEmpty || maxSize < s.utf8ByteSize then none
  else if cs.head? = some '/' then ofPathQuery? cs
  else if cs = ['*'] then some ⟨"*", ""⟩
  else
    let scheme := cs.takeWhile isSchemeChar
    match cs.dropWhile isSchemeChar with
    | ':' :: '/' :: '/' :: rest => if scheme.length ≤ maxScheme then ofHierarchy? rest else none
    | _ => if isAuthority cs then some ⟨"", ""⟩ else none

end Target

end LeadAutomation.Http
