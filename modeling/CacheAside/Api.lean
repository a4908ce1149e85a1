import CacheAside.Feed
import CacheAside.Market
import CacheAside.News

/-! # Reads for the outside

A read names an asset or a category by a plain name of at most sixty-four characters, after which one
line feed may stand. A name that is refused reaches neither the cache nor the feed. -/

namespace CacheAside.Api
set_option autoImplicit false

def isNameChar (c : Char) : Bool :=
  ('A' ≤ c ∧ c ≤ 'Z') ∨ ('a' ≤ c ∧ c ≤ 'z') ∨ ('0' ≤ c ∧ c ≤ '9') ∨ c = '.' ∨ c = '_' ∨ c = '-'

/-- A text without the line feed at its end, if it has one. -/
def dropLineFeed (cs : List Char) : List Char :=
  if cs.getLast? = some '\n' then cs.dropLast else cs

def isName (s : String) : Bool :=
  let cs := dropLineFeed s.toList
  decide (1 ≤ cs.length ∧ cs.length ≤ 64) && cs.all isNameChar

/-- A name as text: a blank one is empty, any other must be a text. -/
def named (v : Json) : Except Failure String :=
  match v with
  | .str s => .ok s
  | v => if v.isBlank then .ok "" else .error .unfit

/-- The name of an asset. -/
def assetName (asset : Json) : Except Failure String := do
  let a ← named asset
  if isName a then return a else throw (.refused (.invalidAsset asset))

/-- The name of a category; the name of the trending list is not one. -/
def categoryName (category : Json) : Except Failure String := do
  let c ← named category
  if !isName c then throw (.refused (.invalidCategory category))
  else if c = "trending" then throw (.refused (.reservedCategory c))
  else return c

/-- Goes on with an accepted name. -/
def accepted (name : Except Failure String) (body : String → Op Payload) : Op Payload := do
  body (← Op.conclude name)

def snapshot (asset : Json) : Op Payload :=
  Op.duty .serveSnapshot
    (accepted (assetName asset) fun a => Market.readSnapshot a (Feed.fetchSnapshot (.str a)))

def extended (asset : Json) : Op Payload :=
  Op.duty .serveExtended
    (accepted (assetName asset) fun a => Market.readExtended a (Feed.fetchExtended (.str a)))

def news (category : Json) : Op Payload :=
  Op.duty .serveNews
    (accepted (categoryName category) fun c => News.readCategory c (Feed.fetchNews (.str c)))

def trending : Op Payload := Op.duty .serveTrending (News.readTrending Feed.fetchTrending)

end CacheAside.Api
