import CacheAside.Market
import CacheAside.News

/-! # Invalidation

Every announced update reaches the subscribers of its topic one after the other: first the invalidation
of the service itself, then the handlers in the order in which they were enlisted. A subscriber that
fails is written to the journal and does not keep the others from their turn. Handlers enlisted on the
way wait for the next update. -/

namespace CacheAside.Invalidation
set_option autoImplicit false

def logger : String := "cache.invalidation"

def note (level : Level) (event : String) (fields : List (String × Json)) : Op Unit :=
  Op.note ⟨logger, level, event, fields, none⟩

/-! ## What an update drops -/

/-- The answer of the service itself to an update. The keys of an asset without a name end where the name
would begin; a blank category is none. -/
def invalidate : Update → Op Unit
  | .asset id kind => do
    note .info "Cache invalidation triggered for asset" (Update.asset id kind).fields
    let name := Key.segment id
    if kind = .metadata then Market.dropExtended name else Market.dropAsset name
  | .news category trending => do
    note .info "Cache invalidation triggered for news" (Update.news category trending).fields
    if category.isBlank then News.dropAll else News.dropCategory category.plain
    if trending then News.dropTrending

/-! ## Subscribers -/

/-- Enlists what is offered as a handler; what cannot be called is refused. -/
def enlist (topic : Topic) (candidate : Option Handler) : Op Unit :=
  match candidate with
  | none => throw (.refused (.notCallable topic))
  | some h => modify (·.subscribe topic (.handler h))

/-- Carries out a script; updates are announced by `announce`. -/
def perform (announce : Announcement → Op Unit) : Script → Op Unit
  | .finish => pure ()
  | .fail f => throw f
  | .drop key next => do
    Cache.delete key
    perform announce next
  | .enlist topic name label react next => do
    enlist topic (some ⟨name, label, react⟩)
    perform announce next
  | .announce a next => do
    announce a
    perform announce next

/-- Gives an update to a subscriber. -/
def deliver (announce : Announcement → Op Unit) (u : Update) (s : Subscriber) : Op Unit := do
  modify fun m => { m with deliveries := ⟨s, u⟩ :: m.deliveries }
  match s with
  | .invalidation => invalidate u
  | .handler h => perform announce (h.react u)

/-- What is written about a subscriber that failed. -/
def failureNote (u : Update) (s : Subscriber) (f : Failure) : Note :=
  match u with
  | .asset id kind =>
    ⟨logger, .error, "Error in asset update handler",
      (Update.asset id kind).fields ++ [("handler", .str (s.label .asset))], some f⟩
  | .news category _ =>
    ⟨logger, .error, "Error in news update handler", [("category", category),
      ("handler", .str (s.label .news))], some f⟩

/-- Gives an update to subscribers in turn. -/
def deliverAll (announce : Announcement → Op Unit) (u : Update) : List Subscriber → Op Unit
  | [] => pure ()
  | s :: rest => do
    Op.contain (deliver announce u s) fun f => Op.note (failureNote u s f)
    deliverAll announce u rest

/-! ## Announcements -/

/-- The update that is announced; an asset update of an unknown kind is refused. -/
def accept : Announcement → Except Refusal Update
  | .asset id kind =>
    match AssetKind.ofJson? kind with
    | none => .error (.unknownKind kind)
    | some kind => .ok (.asset id kind)
  | .news category trending => .ok (.news category trending)

def eventType : Topic → String
  | .asset => "asset_updated"
  | .news => "news_updated"

/-- Announces an update whose handlers may announce others, so many levels deep. -/
def announceWithin : Nat → Announcement → Op Unit
  | 0, _ => throw .tooNested
  | levels + 1, a =>
    match accept a with
    | .error refusal => throw (.refused refusal)
    | .ok u => do
      Op.collect (·.bump "cache_invalidations_total" [eventType u.topic])
      deliverAll (announceWithin levels) u ((← get).subscribers u.topic)

/-- How deep updates may nest. -/
def nesting : Nat := 32

def announce (a : Announcement) : Op Unit := announceWithin nesting a

/-! ## Clearing everything -/

def clearPatterns : List String :=
  [Key.stem Category.marketSnapshot.start ++ ":*", Category.news.start ++ ":*", Registry.metricsStart ++ ":*"]

/-- What clearing everything does at once. -/
def clearTasks : List (Op Nat) := clearPatterns.map Cache.deleteByPattern

/-- Removes every entry of the market, of the news and of the metrics, step by step in an order; answers how many
there were. -/
def clearAllIn (order : List Nat) : Op Nat := do
  note .warning "Clearing all caches" [("patterns", Json.strings clearPatterns)]
  return (← Op.gather order clearTasks).foldr (· + ·) 0

def clearAll : Op Nat := clearAllIn []

end CacheAside.Invalidation
