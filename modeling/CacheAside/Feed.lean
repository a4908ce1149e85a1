import CacheAside.Op
import CacheAside.Payload
import CacheAside.Text.Case

/-! # The feed

The feed makes up market figures from random numbers and news from a fixed text. The figures of a
snapshot lie in fixed ranges; extended data draws its indicators first and then the figures. Articles
are dated back from the present instant. Whatever is fetched is waited for first, and others may go on meanwhile; then
it is made up without interruption. -/

namespace CacheAside.Feed
set_option autoImplicit false

/-- The next random number; they are used in turn again and again. -/
def draw : Op Float := do
  let m ← get
  match m.draws with
  | [] => return 0.0
  | x :: rest =>
    set { m with draws := rest ++ [x] }
    return x

/-- A number drawn evenly from `base` up to `base + width`. -/
def between (base width : Float) : Op Float := return base + (← draw) * width

/-! ## Market data -/

structure Snapshot where
  asset : String
  price : Float
  volume : Float
  cap : Float
  change : Float
  time : Instant

structure Indicators where
  strength : Float
  macdValue : Float
  macdSignal : Float
  macdHistogram : Float
  upperBand : Float
  middleBand : Float
  lowerBand : Float
  simple20 : Float
  simple50 : Float
  exponential12 : Float

namespace Snapshot

def fields (s : Snapshot) : List (String × Json) :=
  [("asset_id", .str s.asset), ("price", .float s.price), ("volume_24h", .float s.volume),
   ("market_cap", .float s.cap), ("price_change_24h", .float s.change),
   ("timestamp", .str s.time.text)]

def json (s : Snapshot) : Json := .obj s.fields

end Snapshot

def Indicators.fields (i : Indicators) : List (String × Json) :=
  [("rsi", .float i.strength),
   ("macd", .obj [("value", .float i.macdValue), ("signal", .float i.macdSignal),
     ("histogram", .float i.macdHistogram)]),
   ("bollinger_bands", .obj [("upper", .float i.upperBand), ("middle", .float i.middleBand),
     ("lower", .float i.lowerBand)]),
   ("moving_averages", .obj [("sma20", .float i.simple20), ("sma50", .float i.simple50),
     ("ema12", .float i.exponential12)])]

/-- A snapshot with its indicators behind it. -/
def extendedJson (s : Snapshot) (i : Indicators) : Json := .obj (s.fields ++ i.fields)

/-- The figures of an asset; where its name is no text they are drawn all the same, for nothing. -/
def drawSnapshot (asset : Json) : Op Snapshot := do
  let price ← between 100.5 10.0
  let volume ← between 1000000.0 100000.0
  let cap ← between 1000000000.0 100000000.0
  let change ← between (-2.5) 5.0
  match asset with
  | .str asset => return ⟨asset, price, volume, cap, change, (← get).clock⟩
  | _ => throw (.illFitting [⟨"asset_id", .notText⟩])

def drawIndicators : Op Indicators := do
  let strength ← between 40.0 40.0
  let macdValue := (← draw) - 0.5
  let macdSignal := (← draw) - 0.5
  let macdHistogram := (← draw) - 0.5
  let upper ← between 110.0 5.0
  let middle ← between 100.0 5.0
  let lower ← between 90.0 5.0
  let simple20 ← between 100.0 5.0
  let simple50 ← between 99.0 5.0
  let exponential12 ← between 101.0 5.0
  return ⟨strength, macdValue, macdSignal, macdHistogram, upper, middle, lower, simple20, simple50,
    exponential12⟩

def marketLogger : String := "cache.providers.market"

def fetchSnapshot (asset : Json) : Op Payload :=
  Op.duty .fetchSnapshot do
    Op.pause
    Op.note ⟨marketLogger, .info, "Fetching market snapshot from upstream",
      [("asset_id", asset)], none⟩
    return .json (← drawSnapshot asset).json

def fetchExtended (asset : Json) : Op Payload :=
  Op.duty .fetchExtended do
    Op.pause
    Op.note ⟨marketLogger, .info, "Fetching extended market data from upstream",
      [("asset_id", asset)], none⟩
    let indicators ← drawIndicators
    return .json (extendedJson (← drawSnapshot asset) indicators)

/-! ## News -/

structure Article where
  id : String
  title : String
  description : String
  source : String
  category : String
  url : String
  image : String
  published : Instant
  sentiment : String

def Article.json (a : Article) : Json :=
  .obj [("id", .str a.id), ("title", .str a.title), ("description", .str a.description),
    ("source", .str a.source), ("category", .str a.category), ("url", .str a.url),
    ("image_url", .str a.image), ("published_at", .str a.published.text),
    ("sentiment", .str a.sentiment)]

def articles (list : List Article) : Payload := .json (.arr (list.map Article.json))

/-- The present instant some seconds back. -/
def ago (seconds : Nat) : Op Instant := do
  match (← get).clock.earlier seconds with
  | some i => return i
  | none => throw .outOfCalendar

def newsLogger : String := "cache.providers.news"

def categoryArticles (category : String) (hourAgo twoHoursAgo : Instant) : List Article :=
  [⟨category ++ "-1", Text.capitalize category ++ " News 1", "Latest developments in the crypto space",
     "CryptoNews", category, "https://example.com/news/" ++ category ++ "/1",
     "https://example.com/images/news-1.jpg", hourAgo, "positive"⟩,
   ⟨category ++ "-2", Text.capitalize category ++ " News 2", "Market update on blockchain technology",
     "CryptoNews", category, "https://example.com/news/" ++ category ++ "/2",
     "https://example.com/images/news-2.jpg", twoHoursAgo, "neutral"⟩]

def trendingArticles (present halfHourAgo : Instant) : List Article :=
  [⟨"trending-1", "Bitcoin Reaches New All-Time High",
     "Cryptocurrency markets surge on positive regulatory news", "CryptoNews", "market-updates",
     "https://example.com/news/trending/1", "https://example.com/images/trending-1.jpg", present,
     "positive"⟩,
   ⟨"trending-2", "Stellar Ecosystem Expands", "New partnerships announced for Stellar blockchain",
     "Stellar Official", "stellar-updates", "https://example.com/news/trending/2",
     "https://example.com/images/trending-2.jpg", halfHourAgo, "positive"⟩]

/-- Articles of a category; their titles are written with its name. -/
def fetchNews (category : Json) : Op Payload :=
  Op.duty .fetchNews do
    Op.pause
    Op.note ⟨newsLogger, .info, "Fetching news from upstream", [("category", category)], none⟩
    match category with
    | .str category => return articles (categoryArticles category (← ago 3600) (← ago 7200))
    | v => throw (.notText ⟨v, .capitalized⟩)

def fetchTrending : Op Payload :=
  Op.duty .fetchTrending do
    Op.pause
    Op.note ⟨newsLogger, .info, "Fetching trending news from upstream", [], none⟩
    let present := (← get).clock
    return articles (trendingArticles present (← ago 1800))

end CacheAside.Feed
