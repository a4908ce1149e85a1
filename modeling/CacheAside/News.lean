import CacheAside.Cache

/-! # Cached news

Articles live under a key for their category, those of all categories together under the bare start of
the news keys, and the trending list under a key of its own. -/

namespace CacheAside.News
set_option autoImplicit false

/-- Stands for all categories together. -/
def everything : String := "all"

def categoryKey (category : String) : String :=
  Key.build [.str Category.news.start, .str (if category = everything then "" else category)]

def trendingKey : String := Key.build [.str Category.newsTrending.start]

def readCategory (category : String) (provider : Op Payload) : Op Payload :=
  Op.duty .readNews (Cache.getOrSet (categoryKey category) provider (some Category.news.lifetime))

def readTrending (provider : Op Payload) : Op Payload :=
  Op.duty .readTrending (Cache.getOrSet trendingKey provider (some Category.newsTrending.lifetime))

/-- What dropping all news does at once. -/
def dropAllTasks : List (Op Unit) :=
  [discard (Cache.deleteByPattern (Category.news.start ++ ":*")),
   discard (Cache.deleteByPattern (Category.newsTrending.start ++ ":*")),
   Cache.delete (categoryKey everything)]

/-- Drops every category, the trending list and the list of all categories, step by step in an order. -/
def dropAllIn (order : List Nat) : Op Unit := Op.duty .dropNews (discard (Op.gather order dropAllTasks))

def dropAll : Op Unit := dropAllIn []

def dropCategory (category : String) : Op Unit :=
  Op.duty .dropCategory (Cache.delete (categoryKey category))

def dropTrending : Op Unit := Op.duty .dropTrending (Cache.delete trendingKey)

end CacheAside.News
