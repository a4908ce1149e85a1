import CacheAside.Failure

/-! # Updates and their handlers

An update tells that an asset or the news have changed at their source. A handler answers it with a
script: a finite course of actions that may end in a failure, drop a key, enlist further handlers, or
announce further updates. -/

namespace CacheAside
set_option autoImplicit false

/-- Which part of an asset changed. -/
inductive AssetKind where
  | price
  | volume
  | metadata
  | all
deriving DecidableEq, Repr

namespace AssetKind

def name : AssetKind → String
  | .price => "price"
  | .volume => "volume"
  | .metadata => "metadata"
  | .all => "all"

/-- The kind that a value names, exactly. -/
def ofJson? : Json → Option AssetKind
  | .str s => [price, volume, metadata, all].find? fun kind => kind.name = s
  | _ => none

end AssetKind

/-- An update names its asset or its category by a text or, against custom, by another value. News
without a category are those of all categories. -/
inductive Update where
  | asset (id : Json) (kind : AssetKind)
  | news (category : Json) (trending : Bool)

namespace Update

def topic : Update → Topic
  | .asset _ _ => .asset
  | .news _ _ => .news

/-- What an update says, by name. -/
def fields : Update → List (String × Json)
  | .asset id kind => [("asset_id", id), ("kind", .str kind.name)]
  | .news category trending => [("category", category), ("is_trending", .bool trending)]

end Update

/-- An update as it is announced; the kind of an asset update may not be one. -/
inductive Announcement where
  | asset (id kind : Json)
  | news (category : Json) (trending : Bool)

/-- What a handler does with an update. -/
inductive Script where
  | finish
  | fail (failure : Failure)
  | drop (key : String) (next : Script)
  /-- Enlists a handler with its name, the name it is known by in the journal, and what it does. -/
  | enlist (topic : Topic) (name : Json) (label : String) (react : Update → Script) (next : Script)
  | announce (a : Announcement) (next : Script)

structure Handler where
  name : Json
  /-- The name in the journal. -/
  label : String
  react : Update → Script

/-- Enlists what is offered as a handler; what cannot be called is refused and ends the script. -/
def Script.offer (topic : Topic) (candidate : Option Handler) (next : Script) : Script :=
  match candidate with
  | some h => .enlist topic h.name h.label h.react next
  | none => .fail (.refused (.notCallable topic))

/-- Who is called for an update: the invalidation of the service itself, or a handler. -/
inductive Subscriber where
  | invalidation
  | handler (h : Handler)

namespace Subscriber

def label (topic : Topic) : Subscriber → String
  | .invalidation =>
    match topic with
    | .asset => "CacheInvalidationService._handle_asset_updated"
    | .news => "CacheInvalidationService._handle_news_updated"
  | .handler h => h.label

end Subscriber

/-- An update that reached a subscriber. -/
structure Delivery where
  subscriber : Subscriber
  update : Update

end CacheAside
