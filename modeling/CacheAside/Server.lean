import CacheAside.Failure
import CacheAside.Seconds
import CacheAside.Text.Matcher

/-! # The key-value server and the commands it answers

The server holds texts under keys, each with the seconds it has left or without end. `apply` says what
a command answers and leaves behind when it is carried out; `elapse` lets time pass. Listed keys are in
the order of their characters, and removing counts the keys that were there. -/

namespace CacheAside
set_option autoImplicit false

structure Entry where
  text : String
  /-- Seconds left; none without end. -/
  left : Option Seconds

namespace Entry

/-- An entry some seconds later, if it has any left; a negative number takes seconds back. -/
def later (seconds : Seconds) (e : Entry) : Option Entry :=
  match e.left with
  | none => some e
  | some left =>
    let rest := left.minus seconds
    if rest.isOver? = some true then none else some { e with left := some rest }

/-- Whether so many seconds can be taken off what an entry has left. -/
def countsDown (seconds : Seconds) (e : Entry) : Bool :=
  e.left.all fun left => left.isNumber && seconds.isNumber

end Entry

/-- What the server says about itself. -/
inductive ServerInfo where
  | text (s : String)
  | fields (fields : Table Json)

namespace ServerInfo

def default : ServerInfo :=
  .fields (Table.ofRows [("redis_version", .str "7.2.0"), ("connected_clients", .int 3)])

/-- One line for each field, its name before a colon. -/
def render : ServerInfo → String
  | .text s => s
  | .fields t => "\r\n".intercalate (t.rows.map fun (name, v) => name ++ ":" ++ v.plain)

end ServerInfo

/-! ## Commands -/

/-- What a client is opened with. -/
structure Endpoint where
  url : String
  connectTimeout : Float
  timeout : Float

inductive Command where
  /-- Makes a new client; the others use the one there is. -/
  | «open» (endpoint : Endpoint)
  | ping
  | get (key : String)
  | set (key text : String)
  | setFor (key : String) (seconds : Seconds) (text : String)
  | remove (keys : List String)
  | list (pattern : String)
  | describe
  | close

namespace Command

/-- What a command answers. -/
abbrev Reply : Command → Type
  | .get _ => Option String
  | .remove _ => Nat
  | .list _ => List String
  | .describe => ServerInfo
  | _ => Unit

end Command

/-! ## The server -/

structure Server where
  entries : Table Entry
  info : ServerInfo
  /-- How patterns are read. -/
  matcher : Matcher

namespace Server

def find? (s : Server) (key : String) : Option Entry := s.entries.find? key

/-- The keys that match a pattern, in order. -/
def matching (s : Server) (pattern : String) : List String :=
  (s.entries.keys.filter (s.matcher.accepts pattern)).mergeSort fun a b => decide (a ≤ b)

def put (s : Server) (key : String) (e : Entry) : Server := { s with entries := s.entries.put key e }

/-- The server without these keys. -/
def without (s : Server) (keys : List String) : Server :=
  { s with entries := s.entries.keep fun key _ => key ∉ keys }

/-- Time passes: entries with no seconds left are gone. -/
def elapse (s : Server) (seconds : Seconds) : Server :=
  { s with entries := s.entries.mapMaybe fun _ => Entry.later seconds }

/-- Time passes for one entry after the other, up to the first one that does not count down; there is a
failure if one does not. -/
def elapseInTurn (s : Server) (seconds : Seconds) : Option Failure × Server :=
  match s.entries.rows.dropWhile fun row => row.2.countsDown seconds with
  | [] => (none, s.elapse seconds)
  | stuck =>
    let onward (key : String) (e : Entry) : Option Entry :=
      if key ∈ stuck.map Prod.fst then some e else e.later seconds
    (some .uncountable, { s with entries := s.entries.mapMaybe onward })

/-- What a command answers and leaves behind. -/
def apply (s : Server) : (c : Command) → c.Reply × Server
  | .«open» _ => ((), s)
  | .ping => ((), s)
  | .get key => ((s.find? key).map Entry.text, s)
  | .set key text => ((), s.put key ⟨text, none⟩)
  | .setFor key seconds text => ((), s.put key ⟨text, seconds.unlessNull⟩)
  | .remove keys => (s.entries.size - (s.without keys).entries.size, s.without keys)
  | .list pattern => (s.matching pattern, s)
  | .describe => (s.info, s)
  | .close => ((), s)

/-- All entries in the order of their keys. -/
def dump (s : Server) : List (String × Entry) :=
  s.entries.rows.mergeSort fun a b => decide (a.1 ≤ b.1)

end Server
end CacheAside
