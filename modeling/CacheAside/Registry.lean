import CacheAside.Category
import CacheAside.Text.Case

/-! # The registry of categories

A key is governed by the category with the longest matching start, the first one of equal length.
Lifetime and bucket both follow that category; a key that no category owns has the default lifetime
and is counted under its own stem. -/

namespace CacheAside
set_option autoImplicit false

/-- Categories under their names, in order. -/
abbrev Registry := Table Category

namespace Registry

/-- The registry of the service. -/
def builtin : Registry :=
  Table.ofRows ([Category.marketSnapshot, Category.marketExtended, Category.news,
    Category.newsTrending].map fun c => (c.name, c))

def defaultLifetime : Seconds := .whole 300

/-- What the keys of cached metrics begin with; no category governs them. -/
def metricsStart : String := "cache:metrics"

/-- Of the categories that own the key the first one with the longest start. -/
def longest (key : String) : List Category → Option Category
  | [] => none
  | c :: cs =>
    match longest key cs with
    | none => if c.owns key then some c else none
    | some best => if c.owns key ∧ best.start.length ≤ c.start.length then some c else some best

def govern (r : Registry) (key : String) : Option Category := longest key r.values

def lifetime (r : Registry) (otherwise : Seconds) (key : String) : Seconds :=
  match r.govern key with
  | some c => c.lifetime
  | none => otherwise

def bucket (r : Registry) (key : String) : String :=
  match r.govern key with
  | some c => c.bucket
  | none => Key.stem key

/-- The distinct buckets in order. -/
def buckets (r : Registry) : List String :=
  r.values.foldl (fun acc c => if c.bucket ∈ acc then acc else acc ++ [c.bucket]) []

/-- What the registry says of each category, under lower-case names. -/
def summary (r : Registry) : Json :=
  Json.object (r.rows.map fun (name, c) =>
    (Text.lowercase name, .obj [("ttl", c.lifetime.json), ("prefix", .str c.start),
      ("description", c.description)]))

/-- A registry from categories; a repeated name keeps its first place and its last category. -/
def ofCategories (cs : List Category) : Registry := Table.ofRows (cs.map fun c => (c.name, c))

end Registry
end CacheAside
