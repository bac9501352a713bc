/-!
# Log records

What a run reports besides its answer: records of three levels, each from one area of the
program.
-/

namespace ScriptFold.Log

/-- How much a record matters, most first. -/
inductive Level
  | warn
  | info
  | debug
deriving DecidableEq, Repr

/-- The part of the program a record comes from. -/
inductive Area
  | line
  | group
  | template
  | rewriting
  | library
  | source
  | snippet
  | config
  | commandLine
deriving DecidableEq, Repr

/-- A record. -/
structure Record where
  level : Level
  area : Area
  message : String
deriving DecidableEq, Repr

/-- The word for a level. -/
def Level.name : Level → String
  | .warn => "WARN"
  | .info => "INFO"
  | .debug => "DEBUG"

/-- The rank of a level; a threshold lets through what does not rank above it. -/
def Level.rank : Level → Nat
  | .warn => 0
  | .info => 1
  | .debug => 2

/-- The name of an area in the log. -/
def Area.target : Area → String
  | .line => "baf_subst::element::literal"
  | .group => "baf_subst::element::group"
  | .template => "baf_subst::template"
  | .rewriting => "baf_subst::driver"
  | .library => "baf_subst::registry"
  | .source => "baf_subst::source"
  | .snippet => "baf_subst::snippet"
  | .config => "baf_subst::config"
  | .commandLine => "baf_subst"

/-- The records a threshold lets through. -/
def upTo (threshold : Level) (records : List Record) : List Record :=
  records.filter fun record => record.level.rank ≤ threshold.rank

end ScriptFold.Log
