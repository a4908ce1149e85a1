import CacheAside.Json.Reader
import CacheAside.Text.Segments
import CacheAside.Text.Utf8

/-! # Request targets

A target is a path and, behind a question mark, a query. Octets written with a percent sign are read as
UTF-8 together with the plain characters around them; a percent sign without two hexadecimal digits
stands for itself. In a query `&` stands between the pairs, `+` for a blank, and a name without a value
has the empty one. -/

namespace CacheAside.Http
set_option autoImplicit false

/-! ## Escapes -/

/-- A text with its escapes read. The octets before it, the latest first, are read together with those
that follow, up to a character beyond ASCII. -/
def unescapeAfter (octets : List Nat) : List Char → List Char
  | [] => Text.decodeUtf8 octets.reverse
  | '%' :: a :: b :: rest =>
    match Json.hexValue a, Json.hexValue b with
    | some x, some y => unescapeAfter ((x * 16 + y) :: octets) rest
    | _, _ => unescapeAfter ('%'.toNat :: octets) (a :: b :: rest)
  | c :: rest =>
    if c.toNat < 0x80 then unescapeAfter (c.toNat :: octets) rest
    else Text.decodeUtf8 octets.reverse ++ c :: unescapeAfter [] rest

/-- A text with its escapes read. -/
def unescape (cs : List Char) : List Char := unescapeAfter [] cs

/-- The characters that stand for themselves in a location. -/
def isSafe (c : Char) : Bool :=
  ('A' ≤ c ∧ c ≤ 'Z') ∨ ('a' ≤ c ∧ c ≤ 'z') ∨ ('0' ≤ c ∧ c ≤ '9') ∨
    c ∈ "_.-~:/%#?=@[]!$&\x27()*+,;".toList

def hexUpper (n : Nat) : Char :=
  if n < 10 then Char.ofNat ('0'.toNat + n) else Char.ofNat ('A'.toNat + (n - 10))

/-- A character by its octets. -/
def escapeChar (c : Char) : List Char :=
  (Text.octets c).flatMap fun b => ['%', hexUpper (b / 16), hexUpper (b % 16)]

/-- A text with everything escaped that is not safe in a location. -/
def escape (cs : List Char) : List Char := cs.flatMap fun c => if isSafe c then [c] else escapeChar c

/-- A path in which nothing is taken for the end of it. -/
def delimited (path : List Char) : List Char :=
  path.flatMap fun c => if c ∈ ['?', '#', '\\'] then escapeChar c else [c]

/-! ## Queries -/

/-- A pair of a query; nothing where nothing is written. -/
def queryPair? (cs : List Char) : Option (String × String) :=
  if cs.isEmpty then none
  else
    let decode (part : List Char) :=
      String.ofList (unescape (part.map fun c => if c = '+' then ' ' else c))
    some (decode (cs.takeWhile (· ≠ '=')), decode ((cs.dropWhile (· ≠ '=')).drop 1))

/-- The octets of a text, each as the character with its number. -/
def octetChars (cs : List Char) : List Char := cs.flatMap fun c => (Text.octets c).map Char.ofNat

def parseQuery (cs : List Char) : List (String × String) :=
  (Text.split '&' (octetChars cs)).filterMap queryPair?

/-! ## Targets -/

structure Target where
  /-- The path with its escapes read. -/
  path : List Char
  /-- The query as it is written. -/
  query : List Char

def Target.parse (s : String) : Target :=
  let cs := s.toList
  ⟨unescape (cs.takeWhile (· ≠ '?')), (cs.dropWhile (· ≠ '?')).drop 1⟩

/-- The last value of a name in the query. -/
def Target.parameter? (t : Target) (name : String) : Option String :=
  ((parseQuery t.query).reverse.find? fun pair => pair.1 = name).map Prod.snd

/-- The path as it is written down: from a slash on, without tabs and line ends. -/
def Target.writtenPath (t : Target) : String :=
  let path := delimited t.path
  let path := if path.isEmpty ∨ path.head? = some '/' then path else '/' :: path
  String.ofList (path.filter fun c => c ≠ '\t' ∧ c ≠ '\n' ∧ c ≠ '\r')

end CacheAside.Http
