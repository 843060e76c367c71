/-!
# Log levels and filters

A filter lets pass the events of a level and of all graver ones.  The parts of
this program have a filter of their own; other events pass at most as
warnings.
-/

namespace ReportDesk.Log

inductive Level where
  | error
  | warn
  | info
  | debug
  | trace
deriving DecidableEq, Repr

namespace Level

def rank : Level → Nat
  | .error => 1
  | .warn => 2
  | .info => 3
  | .debug => 4
  | .trace => 5

def name : Level → String
  | .error => "error"
  | .warn => "warn"
  | .info => "info"
  | .debug => "debug"
  | .trace => "trace"

def title : Level → String
  | .error => "ERROR"
  | .warn => "WARN"
  | .info => "INFO"
  | .debug => "DEBUG"
  | .trace => "TRACE"

end Level

inductive Filter where
  | off
  | upTo (level : Level)
deriving DecidableEq, Repr

namespace Filter

def rank : Filter → Nat
  | .off => 0
  | .upTo level => level.rank

def name : Filter → String
  | .off => "off"
  | .upTo level => level.name

def ofName? : String → Option Filter
  | "off" => some .off
  | "error" => some (.upTo .error)
  | "warn" => some (.upTo .warn)
  | "info" => some (.upTo .info)
  | "debug" => some (.upTo .debug)
  | "trace" => some (.upTo .trace)
  | _ => none

/-- The filter of a rank; ranks beyond the last one let everything pass. -/
def ofRank : Nat → Filter
  | 0 => .off
  | 1 => .upTo .error
  | 2 => .upTo .warn
  | 3 => .upTo .info
  | 4 => .upTo .debug
  | _ => .upTo .trace

def passes (f : Filter) (level : Level) : Bool :=
  level.rank ≤ f.rank

def stricter (f g : Filter) : Filter :=
  if f.rank ≤ g.rank then f else g

end Filter

inductive Origin where
  | client
  | formula
  | model
  | report
  | program
deriving DecidableEq, Repr

def filteredOrigins : List (Origin × String) :=
  [(.client, "rcl_cli"), (.formula, "rcl_formula"), (.model, "rcl_model"),
   (.report, "rcl_report")]

def Filter.elsewhere (f : Filter) : Filter :=
  (Filter.upTo .warn).stricter f

def Filter.forOrigin (f : Filter) (origin : Origin) : Filter :=
  if filteredOrigins.any fun entry => entry.1 == origin then f else f.elsewhere

def Filter.directives (f : Filter) : String :=
  f.elsewhere.name ++
    String.join (filteredOrigins.map fun entry =>
      "," ++ entry.2 ++ "=" ++ f.name)

end ReportDesk.Log
