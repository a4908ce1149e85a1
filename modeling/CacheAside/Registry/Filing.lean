import CacheAside.Failure
import CacheAside.Registry

/-! # Filing categories

A category is filed with named values of any kind. Its lifetime, and that its start is not blank, are
looked at as it is filed (`FiledCategory.ofValues`); whether its name and its start are texts only shows
where they are used. `registry` is the registry of what can be used, and the faults say what fails:
looking up a key, naming the buckets, or telling all of it. -/

namespace CacheAside
set_option autoImplicit false

/-- A category as it was filed. -/
structure FiledCategory where
  name : Json
  lifetime : Seconds
  start : Json
  description : Json

namespace FiledCategory

/-- The names of the values that a category is filed with. -/
def valueNames : List String := ["name", "ttl", "prefix", "description"]

/-- A category filed with named values. A collection is no name. -/
def ofValues (values : List (String × Json)) : Except CategoryFault FiledCategory := do
  let value (name : String) : Json := (Rows.find? name values).getD .null
  unless valueNames.all (values.map Prod.fst).contains && values.all fun v => valueNames.contains v.1 do
    throw .misnamed
  let c : FiledCategory := ⟨value "name", .ofJson (value "ttl"), value "prefix", value "description"⟩
  discard (Category.make c.name.plain c.lifetime (Key.segment c.start) c.description)
  match c.name with
  | .arr _ | .obj _ => throw .unusableName
  | _ => return c

/-- The category, if its start is a text. -/
def category? (c : FiledCategory) : Option Category :=
  c.start.text?.bind fun start =>
    (Category.make c.name.plain c.lifetime start c.description).toOption

end FiledCategory

/-! ## Names -/

/-- The exact value of a number as a fraction; truth values count as one and zero. -/
def fraction? : Json → Option (Int × Nat)
  | .int i => some (i, 1)
  | .bool b => some (if b then 1 else 0, 1)
  | .float x => Decimal.fraction? x
  | _ => none

/-- Whether two names are one. Numbers are told apart by their values. -/
def isSameName : Json → Json → Bool
  | .str a, .str b => a = b
  | .null, .null => true
  | .float x, .float y => x == y
  | a, b =>
    match fraction? a, fraction? b with
    | some (m, d), some (n, e) => m * e = n * d
    | _, _ => false

/-! ## Registries -/

/-- Categories as they were filed, under their names. -/
abbrev FiledRegistry := List (Json × FiledCategory)

namespace FiledRegistry

/-- A repeated name keeps its first place and its last category. -/
def file (c : FiledCategory) : FiledRegistry → FiledRegistry
  | [] => [(c.name, c)]
  | (name, other) :: rest =>
    if isSameName name c.name then (name, c) :: rest else (name, other) :: file c rest

def ofCategories (cs : List FiledCategory) : FiledRegistry := cs.foldl (fun r c => file c r) []

/-- The categories of the service. -/
def builtin : FiledRegistry :=
  Registry.builtin.rows.map fun (name, c) =>
    (.str name, ⟨.str c.name, c.lifetime, .str c.start, c.description⟩)

/-- The categories with the longest start first, in order where starts are of equal length. -/
def byLength (r : FiledRegistry) : List FiledCategory :=
  (r.map Prod.snd).mergeSort fun a b => decide ((b.start.size?).getD 0 ≤ (a.start.size?).getD 0)

/-- The registry of the categories whose starts are texts. If a name is none, names are not told. -/
def registry (r : FiledRegistry) : Registry :=
  let named := r.all fun row => row.1.text?.isSome
  Table.ofRows (r.zipIdx.filterMap fun ((name, c), place) =>
    c.category?.map ((if named then name.plain else toString place), ·))

/-- The registry, if not all names and starts in it are texts. -/
def misfiled? (r : FiledRegistry) : Option FiledRegistry :=
  if r.all fun row => row.1.text?.isSome && row.2.start.text?.isSome then none else some r

/-! ## Faults -/

/-- What goes wrong when a key is compared with starts in turn, up to the first that it begins with. -/
def comparisonFault? (key : Json) : List FiledCategory → Option Failure
  | [] => none
  | c :: rest =>
    match key, c.start with
    | .str key, .str start => if Key.beginsWith key start then none else comparisonFault? (.str key) rest
    | .str _, _ => some .unfit
    | key, _ => some (.notText ⟨key, .beginning⟩)

/-- What goes wrong when a key is looked up. A start that has no length cannot be put in order. -/
def lookupFault? (r : FiledRegistry) (key : Json) : Option Failure :=
  if r.all fun row => row.2.start.size?.isSome then comparisonFault? key r.byLength else some .unfit

/-- What goes wrong when the bucket of a key is named. -/
def bucketFault? (r : FiledRegistry) (key : Json) : Option Failure :=
  (r.lookupFault? key).or (if key.text?.isSome then none else some (.notText ⟨key, .parts⟩))

/-- What goes wrong when all buckets are named. -/
def bucketsFault? (r : FiledRegistry) : Option Failure :=
  (r.find? fun row => row.2.start.text?.isNone).map fun row => .notText ⟨row.2.start, .parts⟩

/-- What goes wrong when all of the registry is told. -/
def summaryFault? (r : FiledRegistry) : Option Failure :=
  (r.find? fun row => row.1.text?.isNone).map fun row => .notText ⟨row.1, .lowerCase⟩

/-- What goes wrong first when keys are looked up, and then the buckets and all the rest are told. -/
def readingFault? (r : FiledRegistry) (keys : List Json) : Option Failure :=
  (keys.findSome? r.bucketFault?).or (r.bucketsFault?.or r.summaryFault?)

/-- What the registry says of each category, under lower-case names. -/
def summary (r : FiledRegistry) : Except Failure Json :=
  match r.summaryFault? with
  | some f => .error f
  | none => .ok (Json.object (r.map fun (name, c) =>
      (Text.lowercase name.plain, .obj [("ttl", c.lifetime.json), ("prefix", c.start),
        ("description", c.description)])))

end FiledRegistry
end CacheAside
