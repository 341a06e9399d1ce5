import Roomcast.Text.Split

/-!
# Targets

A request names what it is about by a target. A target is a path with or without a query, or the
same behind a scheme and the authority of a server, or an authority alone. In a path and in a query
most characters stand for themselves, although only some of them need no escape. A fragment at the
end is for the client alone and is left out.
-/

namespace Roomcast.Http

/-- What a request is about. -/
structure Target where
  path : List Char
  query : Option (List Char)
deriving DecidableEq

/-- Whether a character is neither blank nor a control in ASCII. -/
def isVisible (c : Char) : Bool := 0x21 ≤ c.toNat && c.toNat ≠ 0x7F

/-- Whether a visible character may stand in a path. -/
def isPathChar (c : Char) : Bool := c ∉ ['<', '>', '\x60']

/-- Whether a visible character may stand in a query. -/
def isQueryChar (c : Char) : Bool := c ∉ ['"', '<', '>']

/-- Whether a character may stand in a scheme. -/
def isSchemeChar (c : Char) : Bool := c.isAlphanum || ['+', '-', '.', '~'].contains c

/-- The characters without a meaning of their own that may stand in an authority besides letters and
digits. -/
def authorityMarks : List Char :=
  ['!', '$', '&', '\x27', '(', ')', '*', '+', ',', '-', '.', ';', '=', '_', '~']

def authorityEnds : List Char := ['/', '?', '#']

def maxScheme : Nat := 64

/-- The most colons that may stand together in one part of an authority. -/
def maxColons : Nat := 8

/-- What is known of an authority after some of its characters. -/
structure Authority where
  colons : Nat
  escaped : Bool
  opened : Bool
  closed : Bool
deriving DecidableEq

namespace Authority

def start : Authority := ⟨0, false, false, false⟩

/-- What is known after one more character. The user, and an address in brackets, are parts of their
own, so that what they hold does not count for the host and the port behind them. -/
def push? (a : Authority) (c : Char) : Option Authority :=
  if c = ':' then if a.colons < maxColons then some { a with colons := a.colons + 1 } else none
  else if c = '[' then if a.escaped || a.opened then none else some { a with opened := true }
  else if c = ']' then
    if a.opened && !a.closed then some ⟨0, false, true, true⟩ else none
  else if c = '@' then some { a with colons := 0, escaped := false }
  else if c = '%' then some { a with escaped := true }
  else if c.isAlphanum || authorityMarks.contains c then some a
  else none

/-- Whether the authority may end here. A host has no escapes, and there is one port at most. -/
def mayEnd (a : Authority) : Bool := a.opened == a.closed && a.colons ≤ 1 && !a.escaped

end Authority

/-- Whether some characters are an authority. If they name a user, a host follows. -/
def isAuthority (s : List Char) : Bool :=
  (s.foldlM Authority.push? .start).any (·.mayEnd) && s.getLast? ≠ some '@'

namespace Target

def ofPath? (s : List Char) : Option Target :=
  let (path, query) := Text.cutAt '?' (Text.cutAt '#' s).1
  if path.all isPathChar && query.all (·.all isQueryChar) then some { path, query } else none

/-- The scheme that a target begins with, and what follows it. -/
def cutScheme? (s : List Char) : Option (List Char × List Char) :=
  match Text.cutAt ':' s with
  | (scheme, some ('/' :: '/' :: rest)) =>
    if scheme.all isSchemeChar then some (scheme, rest) else none
  | _ => none

def ofAuthority? (s : List Char) : Option Target :=
  let inside := fun c => !authorityEnds.contains c
  let authority := s.takeWhile inside
  if authority ≠ [] && isAuthority authority then ofPath? (s.dropWhile inside) else none

def parse? (s : List Char) : Option Target :=
  if s = [] || !s.all isVisible then none
  else if s.head? = some '/' then ofPath? s
  else
    match cutScheme? s with
    | some (scheme, rest) => if scheme.length ≤ maxScheme then ofAuthority? rest else none
    | none => if isAuthority s then some ⟨[], none⟩ else none

end Target

end Roomcast.Http
