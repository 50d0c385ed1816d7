/-!
This module contains the endpoints that a connection is made to. A host is given as a text and becomes
part of a location `http://HOST:PORT`, so it has to keep to the grammar of locations: up to a slash, a
question mark or a hash it is an authority, which may hold the name of a user, brackets around a long
address and one colon before a port; what follows is a path and a query.
-/

namespace PadRelay.Net

/--
Whether a character may stand in an authority as it is. The percent sign has a rule of its own.
-/
def isAuthorityChar (c : Char) : Bool :=
  c.isAlphanum || "!$&'()*+,-.:;=@[]_~".toList.contains c

structure AuthorityScan where
  /-- The number of colons that do not belong to a user or to a long address. -/
  colons : Nat := 0
  opened : Bool := false
  closed : Bool := false
  /-- Whether there was a percent sign that does not belong to a user or to a long address. -/
  percent : Bool := false
  afterUser : Bool := false
deriving DecidableEq, Repr

namespace AuthorityScan

def maxColons : Nat := 8

def next? (s : AuthorityScan) (c : Char) : Option AuthorityScan :=
  let s := { s with afterUser := c = '@' }
  match c with
  | ':' => if maxColons ≤ s.colons then none else some { s with colons := s.colons + 1 }
  | '[' => if s.percent || s.opened then none else some { s with opened := true }
  | ']' =>
    if !s.opened || s.closed then none
    else some { s with closed := true, colons := 0, percent := false }
  | '@' => some { s with colons := 0, percent := false }
  | '%' => some { s with percent := true }
  | _ => if isAuthorityChar c then some s else none

def mayEnd (s : AuthorityScan) : Bool :=
  s.opened == s.closed && decide (s.colons ≤ 1) && !s.afterUser && !s.percent

end AuthorityScan

/--
Whether a character may stand in a path. Everything beyond the seven bit characters may.
-/
def isPathChar (c : Char) : Bool :=
  0x7e ≤ c.toNat || c.isAlphanum || "!$%&'()*+,-./:;=@[\\]^_\"\x7b|\x7d".toList.contains c

/--
Whether a character may stand in a query. Everything beyond the seven bit characters may.
-/
def isQueryChar (c : Char) : Bool :=
  0x20 < c.toNat && !"\"#<>".toList.contains c

/--
Whether a query may end like this. What follows a hash does not matter.
-/
def isQuery (cs : List Char) : Bool :=
  (cs.takeWhile (· != '#')).all isQueryChar

/--
Whether the part after the authority is a path and perhaps a query. What follows a hash does not matter.
-/
def isPath : List Char → Bool
  | [] => true
  | c :: rest =>
    if c = '?' then isQuery rest
    else if c = '#' then true
    else isPathChar c && isPath rest

def splitAuthority (cs : List Char) : List Char × List Char :=
  cs.span fun c => !"/?#".toList.contains c

def isAuthority (cs : List Char) : Bool :=
  cs ≠ [] && (cs.foldlM AuthorityScan.next? {}).any AuthorityScan.mayEnd

structure Endpoint where
  host : String
  port : UInt16
deriving DecidableEq, Repr

namespace Endpoint

def scheme : String := "http://"

def maxLength : Nat := 65534

def location (e : Endpoint) : String :=
  s!"{e.host}:{e.port.toNat}"

def text (e : Endpoint) : String :=
  scheme ++ e.location

def isValid (e : Endpoint) : Bool :=
  let parts := splitAuthority e.location.toList
  decide (e.text.utf8ByteSize ≤ maxLength) && isAuthority parts.1 && isPath parts.2

end Endpoint
end PadRelay.Net
