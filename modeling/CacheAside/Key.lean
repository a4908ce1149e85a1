import CacheAside.Text.Segments
import CacheAside.Json.Plain
import CacheAside.Json.Writer

/-! # Cache keys

A key is a list of segments joined by colons, from the general to the particular. Nothing is escaped, so
a segment that holds a colon reads back as several. `build` leaves out blank parts, and `build?` also gives
up on a number that is too long to be written out; `parse` splits at every colon; the stem of a key is its
first two segments. -/

namespace CacheAside.Key
set_option autoImplicit false

def separator : Char := ':'

/-- The segments of a key; never empty. -/
def segments (key : String) : List String := (Text.split separator key.toList).map String.ofList

/-- Segments joined to a key. -/
def ofSegments (segments : List String) : String :=
  String.ofList (Text.join separator (segments.map String.toList))

/-- The key with these parts, blank ones left out and the others in plain text. -/
def build (parts : List Json) : String :=
  ofSegments ((parts.filter fun part => !part.isBlank).map Json.plain)

/-- The key with these parts, if no number in one that is not blank has more digits than may be written out. -/
def build? (digits : Nat) (parts : List Json) : Option String :=
  if parts.all fun part => part.isBlank || decide (part.widest ≤ digits) then some (build parts) else none

/-- A part of a key as text; a blank one is empty. -/
def segment (part : Json) : String := if part.isBlank then "" else part.plain

/-- A text stands for itself. -/
@[simp] theorem segment_str (s : String) : segment (.str s) = s := by
  by_cases h : s = "" <;> simp [segment, Json.isBlank, Json.plain, h]

/-- A key as its first segment and the others. -/
structure Parsed where
  head : String
  rest : List String
deriving DecidableEq, Repr

def parse (key : String) : Parsed :=
  match segments key with
  | [] => ⟨"", []⟩
  | head :: rest => ⟨head, rest⟩

/-- The first two segments. -/
def stem (key : String) : String := ofSegments ((segments key).take 2)

/-- Whether a key begins with a text. -/
def beginsWith (key start : String) : Bool := start.toList.isPrefixOf key.toList

end CacheAside.Key
