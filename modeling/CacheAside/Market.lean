import CacheAside.Cache

/-! # Cached market data

A snapshot and the extended data of an asset live under keys of their own, each with the lifetime of its
category. -/

namespace CacheAside.Market
set_option autoImplicit false

def snapshotKey (asset : String) : String :=
  Key.build [.str Category.marketSnapshot.start, .str asset]

def extendedKey (asset : String) : String :=
  Key.build [.str Category.marketExtended.start, .str asset]

def readSnapshot (asset : String) (provider : Op Payload) : Op Payload :=
  Op.duty .readSnapshot
    (Cache.getOrSet (snapshotKey asset) provider (some Category.marketSnapshot.lifetime))

def readExtended (asset : String) (provider : Op Payload) : Op Payload :=
  Op.duty .readExtended
    (Cache.getOrSet (extendedKey asset) provider (some Category.marketExtended.lifetime))

/-- Drops the snapshot and the extended data of an asset. -/
def dropAsset (asset : String) : Op Unit :=
  Op.duty .dropAsset
    (discard (Op.gather [] [Cache.delete (snapshotKey asset), Cache.delete (extendedKey asset)]))

def dropExtended (asset : String) : Op Unit :=
  Op.duty .dropExtended (Cache.delete (extendedKey asset))

end CacheAside.Market
