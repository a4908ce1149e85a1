import CacheAside.Key
import CacheAside.Seconds

/-! # Categories of cached data

A category owns the keys that begin with its text and says how long they live; a lifetime of zero means
for ever. The bucket of a category is where its reads are counted. -/

namespace CacheAside
set_option autoImplicit false

structure Category where
  name : String
  /-- Zero means no expiry. -/
  lifetime : Seconds
  /-- What the keys of the category begin with. -/
  start : String
  description : Json
  lifetime_nonneg : lifetime.isNegative? = some false
  start_ne : start ≠ ""

/-- Why a category is refused. -/
inductive CategoryFault where
  /-- Values are missing, or there are others than those that are asked for. -/
  | misnamed
  /-- The lifetime is no number. -/
  | uncountable
  | negativeLifetime (name : String) (lifetime : Seconds)
  | emptyStart (name : String)
  /-- The name is a collection, under which nothing can be kept. -/
  | unusableName

namespace CategoryFault

def message : CategoryFault → String
  | .misnamed => "other values than a category has"
  | .uncountable => "a lifetime that counts nothing"
  | .negativeLifetime name lifetime =>
    "ttl for " ++ name ++ " must be >= 0, got " ++ lifetime.json.plain
  | .emptyStart name => "prefix for " ++ name ++ " must not be empty"
  | .unusableName => "a name that nothing can be kept under"

end CategoryFault

namespace Category

/-- The lifetime is looked at before the start. -/
def make (name : String) (lifetime : Seconds) (start : String) (description : Json) :
    Except CategoryFault Category :=
  match hl : lifetime.isNegative? with
  | none => .error .uncountable
  | some true => .error (.negativeLifetime name lifetime)
  | some false =>
    if hs : start = "" then .error (.emptyStart name)
    else .ok ⟨name, lifetime, start, description, hl, hs⟩

def bucket (c : Category) : String := Key.stem c.start

/-- Whether a key belongs to the category. -/
def owns (c : Category) (key : String) : Bool := Key.beginsWith key c.start

/-! ## The categories of the service -/

def marketSnapshot : Category :=
  ⟨"MARKET_SNAPSHOT", .whole 60, "cache:market:snapshot",
    .str "Market snapshot data (prices, volumes, etc.)", rfl, by decide⟩

def marketExtended : Category :=
  ⟨"MARKET_SNAPSHOT_EXTENDED", .whole 300, "cache:market:snapshot:extended",
    .str "Extended market data with technical indicators", rfl, by decide⟩

def news : Category :=
  ⟨"NEWS", .whole 600, "cache:news", .str "Crypto news and market updates", rfl, by decide⟩

def newsTrending : Category :=
  ⟨"NEWS_TRENDING", .whole 300, "cache:news:trending", .str "Trending news articles", rfl, by decide⟩

end Category
end CacheAside
