import CacheAside.Failure

/-! # Journal entries

What the parts of the service write down as they work: who writes, how grave it is, what happened, and
named values. An entry written while a failure is contained carries that failure. -/

namespace CacheAside
set_option autoImplicit false

inductive Level where
  | debug
  | info
  | warning
  | error
  | critical
deriving DecidableEq, Repr

namespace Level

def name : Level → String
  | .debug => "debug"
  | .info => "info"
  | .warning => "warning"
  | .error => "error"
  | .critical => "critical"

def number : Level → Nat
  | .debug => 10
  | .info => 20
  | .warning => 30
  | .error => 40
  | .critical => 50

end Level

structure Note where
  logger : String
  level : Level
  event : String
  fields : List (String × Json)
  /-- The failure that the entry is about, if any. -/
  failure : Option Failure

end CacheAside
