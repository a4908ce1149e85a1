import CacheAside.Op

/-! # The store

All commands to the server go through the store. It opens a client when the first command needs one and
keeps it until it is closed. Whatever the client reports becomes a store report that names the operation
and its arguments; other failures pass through as they are. -/

namespace CacheAside.Store
set_option autoImplicit false

def logger : String := "cache.store.redis"

/-- The client in use; a new one where there is none. -/
def client : Op Nat := do
  let m ← get
  match m.clients.held with
  | some n => return n
  | none => do
    Op.command none (.«open» m.endpoint)
    let m ← get
    set { m with clients := m.clients.make }
    return m.clients.made

/-- Gives a command to the client. -/
def send (c : Command) : Op c.Reply := do
  let n ← client
  Op.command n c

/-- Turns what the client reports in `body` into a report of the operation. -/
def reporting {α : Type} (operation : String) (details : List (String × Json)) (body : Op α) : Op α :=
  tryCatch body fun
    | .client _ text => throw (.reported (.ofStore operation text details))
    | f => throw f

/-! ## Life of the client -/

/-- Checks that the server can be reached. -/
def start : Op Unit :=
  reporting "start" [] (tryCatch
    (do
      send .ping
      let m ← get
      Op.note ⟨logger, .info, "Redis store started", [("redis_url", .str m.endpoint.url)], none⟩)
    fun
    | .client fault text => do
      Op.note ⟨logger, .error, "Failed to start Redis store", [], some (.client fault text)⟩
      throw (.client fault text)
    | f => throw f)

/-- Closes the client, if there is one. -/
def stop : Op Unit := do
  match (← get).clients.held with
  | none => return ()
  | some n =>
    Op.command n .close
    modify fun m => { m with clients := m.clients.drop }
    Op.note ⟨logger, .info, "Redis store stopped", [], none⟩

/-- Whether the server can be reached; failures that the client does not report pass through. -/
def isHealthy : Op Bool :=
  tryCatch (do send .ping; return true) fun
    | .client _ _ => return false
    | f => throw f

/-! ## Commands on keys -/

def fetch (key : String) : Op (Option String) :=
  reporting "get" [("key", .str key)] (send (.get key))

def write (key text : String) : Op Unit :=
  reporting "set" [("key", .str key)] (send (.set key text))

def writeFor (key text : String) (seconds : Seconds) : Op Unit :=
  reporting "set_with_expiry" [("key", .str key), ("ttl", seconds.json)]
    (send (.setFor key seconds text))

/-- Removes a key; answers how many there were. -/
def remove (key : String) : Op Nat :=
  reporting "delete" [("key", .str key)] (send (.remove [key]))

/-- Removes a batch of keys in one command; no command is given for no keys. -/
def removeMany (keys : List String) : Op Nat :=
  if keys.isEmpty then return 0
  else reporting "delete_many" [("count", .nat keys.length)] (send (.remove keys))

def keysMatching (pattern : String) : Op (List String) :=
  reporting "keys_matching" [("pattern", .str pattern)] (send (.list pattern))

def serverInfo : Op String := do
  let info ← reporting "server_info" [] (send .describe)
  return info.render

end CacheAside.Store
