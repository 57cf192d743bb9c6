/-
Log levels, log records, and the logger that passes on the records up to a level.
-/
namespace AddressSanitizer

/-- the importance of a record, the most important one first -/
inductive Level where
  | error
  | warn
  | info
  | debug
  | trace
  deriving DecidableEq, Repr

namespace Level

/-- how verbose a level is -/
def rank : Level → Nat
  | error => 0
  | warn => 1
  | info => 2
  | debug => 3
  | trace => 4

def name : Level → String
  | error => "ERROR"
  | warn => "WARN"
  | info => "INFO"
  | debug => "DEBUG"
  | trace => "TRACE"

def all : List Level := [error, warn, info, debug, trace]

def ofName? (s : String) : Option Level := all.find? (·.name = s)

end Level

/-- a line on its way to the log -/
structure Record where
  tag : String
  level : Level
  text : String
  deriving DecidableEq, Repr

/-- a logger that shows records up to `level` -/
structure Logger where
  level : Level

namespace Logger

def enabled (l : Logger) (r : Record) : Bool := r.level.rank ≤ l.level.rank

/-- the records that reach the sink, in order -/
def shown (l : Logger) (rs : List Record) : List Record := rs.filter l.enabled

end Logger

end AddressSanitizer
